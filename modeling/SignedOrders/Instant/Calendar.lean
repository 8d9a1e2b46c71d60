/-!
# The calendar

Dates of the Gregorian calendar, extended backwards, and their count in days.
Day zero is the first of January of year one.  `Date.dayNumber` counts the days
before a date, and `Date.ofDayNumber` finds the date of a day by whole periods of
four hundred years, centuries, four years and years, and then month by month.
-/

namespace SignedOrders

/-- A date of the calendar. -/
structure Date where
  year : Nat
  month : Nat
  day : Nat
  deriving DecidableEq, Repr

namespace Date

/-- A year with a twenty-ninth of February. -/
def isLeapYear (year : Nat) : Bool := year % 4 == 0 && (year % 100 != 0 || year % 400 == 0)

/-- The lengths of the months of a year. -/
def monthLengths (leap : Bool) : List Nat :=
  [31, if leap then 29 else 28, 31, 30, 31, 30, 31, 31, 30, 31, 30, 31]

/-- The number of days of a month; zero for a month that does not exist. -/
def monthLength (leap : Bool) (month : Nat) : Nat :=
  if month = 0 then 0 else (monthLengths leap).getD (month - 1) 0

/-- The days before the first of January of a year. -/
def daysBeforeYear (year : Nat) : Nat :=
  let y := year - 1
  365 * y + y / 4 - y / 100 + y / 400

/-- The days of the year before the first of a month. -/
def daysBeforeMonth (leap : Bool) (month : Nat) : Nat :=
  ((monthLengths leap).take (month - 1)).foldl (· + ·) 0

/-- The year has a day of that month and number. -/
def isDayOfYear (date : Date) : Bool :=
  1 ≤ date.month && date.month ≤ 12 && 1 ≤ date.day &&
    date.day ≤ monthLength (isLeapYear date.year) date.month

/-- The number of days before the date. -/
def dayNumber (date : Date) : Nat :=
  daysBeforeYear date.year + daysBeforeMonth (isLeapYear date.year) date.month + (date.day - 1)

/-- The month and the day of the month that a day of the year falls on, where
`month` is the first of the months of the given lengths. -/
def monthAndDay (month day : Nat) : List Nat → Nat × Nat
  | [] => (month, day + 1)
  | length :: rest =>
    if day < length then (month, day + 1) else monthAndDay (month + 1) (day - length) rest

/-- The year that a day falls in, and the day of the year. -/
def yearAndDay (n : Nat) : Nat × Nat :=
  let (n400, n) := (n / 146097, n % 146097)
  let n100 := min 3 (n / 36524)
  let n := n - 36524 * n100
  let (n4, n) := (n / 1461, n % 1461)
  let n1 := min 3 (n / 365)
  (400 * n400 + 100 * n100 + 4 * n4 + n1 + 1, n - 365 * n1)

/-- The date of a day. -/
def ofDayNumber (n : Nat) : Date :=
  let (year, n) := yearAndDay n
  let (month, day) := monthAndDay 1 n (monthLengths (isLeapYear year))
  ⟨year, month, day⟩

/-- The day of the first of January 1970, from which instants are counted. -/
def epochDay : Nat := 719162

/-- The number of days of the years one to 9999. -/
def dayCount : Nat := 3652059

end Date

end SignedOrders
