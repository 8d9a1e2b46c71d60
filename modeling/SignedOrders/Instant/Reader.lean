import SignedOrders.Binary64.Basic
import SignedOrders.Decimal.Reader
import SignedOrders.Instant.Basic

/-!
# Reading instants

An instant is given by what a clock shows: a date and a time of day, with or without
an offset from universal time; or a date alone, which means its midnight.  It may also
be given as a number of seconds from the start of 1970, which is read as what a clock
of universal time shows.  Numbers too large for that are milliseconds.

The readers of parts return what follows the part, so that a text is read by
their composition.
-/

namespace SignedOrders.Instant

/-- Why nothing that a clock shows can be read. -/
inductive Obstacle where
  /-- It is not in the notation of instants, or far from all of them. -/
  | unreadable
  /-- It lies in the year before year one. -/
  | yearZero
  deriving DecidableEq, Repr

/-! ## Dates and times of day -/

/-- The number written by the first `count` characters, which have to be digits. -/
def fixedDigits? (count : Nat) (s : List Char) : Option (Nat × List Char) :=
  let ds := s.take count
  if ds.length = count ∧ ds.all Char.isDigit then some (Text.digitsValue ds, s.drop count) else none

/-- What follows the character `c`. -/
def after? (c : Char) : List Char → Option (List Char)
  | c' :: s => if c' = c then some s else none
  | [] => none

/-- A date of the calendar, or of the year before it. -/
def date? (s : List Char) : Option (Date × List Char) := do
  let (year, s) ← fixedDigits? 4 s
  let (month, s) ← fixedDigits? 2 (← after? '-' s)
  let (day, s) ← fixedDigits? 2 (← after? '-' s)
  let date : Date := ⟨year, month, day⟩
  if date.isDayOfYear then return (date, s) else none

/-- The microseconds written by the digits of a fraction of a second, of which six
count. -/
def fraction? (s : List Char) : Option (Nat × List Char) :=
  let (ds, rest) := Decimal.takeDigits s
  if ds = [] then none
  else some (Text.digitsValue (ds.take 6) * Decimal.tenTo (6 - ds.length), rest)

/-- The seconds of a time of day, in microseconds; they may be left out. -/
def seconds? (s : List Char) : Option (Nat × List Char) :=
  match s with
  | ':' :: s => do
    let (seconds, s) ← fixedDigits? 2 s
    if seconds > 59 then none
    else
      match s with
      | '.' :: s | ',' :: s => do
        let (fraction, s) ← fraction? s
        return (seconds * perSecond + fraction, s)
      | s => return (seconds * perSecond, s)
  | s => some (0, s)

/-- A time of day, in microseconds since midnight. -/
def time? (s : List Char) : Option (Nat × List Char) := do
  let (hours, s) ← fixedDigits? 2 s
  let (minutes, s) ← fixedDigits? 2 (← after? ':' s)
  if hours > 23 ∨ minutes > 59 then none
  else
    let (seconds, s) ← seconds? s
    return ((hours * 3600 + minutes * 60) * perSecond + seconds, s)

/-- An offset of hours and minutes, in seconds, to the end of the text. -/
def offset? (s : List Char) : Option Nat := do
  let (hours, s) ← fixedDigits? 2 s
  let (minutes, s) ← fixedDigits? 2 ((after? ':' s).getD s)
  if s = [] ∧ hours < 24 ∧ minutes < 60 then return hours * 3600 + minutes * 60 else none

/-- The offset from universal time that ends a text, if there is one. -/
def zone? : List Char → Option (Option Int)
  | [] => some none
  | ['Z'] => some (some 0)
  | ['z'] => some (some 0)
  | '+' :: s => (offset? s).map fun n => some (n : Int)
  | '-' :: s => (offset? s).map fun n => some (-(n : Int))
  | '−' :: s => (offset? s).map fun n => some (-(n : Int))
  | _ => none

/-- The mark between date and time. -/
def isSeparator (c : Char) : Bool := c = 'T' || c = 't' || c = ' ' || c = '_'

/-- The reading, if its date is one of the calendar. -/
def Reading.checked (reading : Reading) : Except Obstacle Reading :=
  if reading.date.year = 0 then .error .yearZero else .ok reading

/-- A date, alone or with a time of day. -/
def reading? (s : List Char) : Option Reading := do
  let (date, s) ← date? s
  match s with
  | [] => return ⟨date, 0, none⟩
  | c :: s =>
    if isSeparator c then
      let (time, s) ← time? s
      return ⟨date, time, ← zone? s⟩
    else none

/-! ## Numbers -/

/-- What a clock of universal time shows `count` microseconds from the start of 1970. -/
def ofMicroseconds (count : Int) : Except Obstacle Reading :=
  let day := count / (perDay : Int) + Date.epochDay
  if day < -366 ∨ (Date.dayCount : Int) ≤ day then .error .unreadable
  else if day < 0 then .error .yearZero
  else .ok ⟨Date.ofDayNumber day.toNat, (count % (perDay : Int)).toNat, some 0⟩

/-- The largest number that counts seconds. -/
def mostSeconds : Nat := 20000000000

/-- The microseconds in the unit of a number: a second, or a millisecond for a
number that is too large to count seconds. -/
def unitOf (isLarge : Bool) : Nat := if isLarge then 1000 else perSecond

/-- The reading that an integer stands for. -/
def ofInt (n : Int) : Except Obstacle Reading :=
  ofMicroseconds (n * unitOf (n.natAbs > mostSeconds))

/-- The microseconds in the fraction `num / den` of a unit.  The fraction and its
count are rounded to binary numbers, and of the count a half goes up. -/
def fractionOf (unit num den : Nat) : Nat :=
  let (num, den) := Binary64.rounded num den
  let (num, den) := Binary64.rounded (num * unit) den
  (2 * num + den) / (2 * den)

/-- The reading that a number with a point stands for: that of the whole number of
units below it, and the fraction of a unit above that. -/
def ofBinary64 : Binary64 → Except Obstacle Reading
  | .finite negative m e =>
    let (num, den) := Binary64.ratio m e
    let signed : Int := if negative then -num else num
    let unit := unitOf (num > mostSeconds * den)
    ofMicroseconds
      (signed / (den : Int) * unit + fractionOf unit (signed % (den : Int)).toNat den)
  | _ => .error .unreadable

/-- The reading of the number that a text writes, in digits alone, or with a point
and perhaps a power of ten. -/
def ofNumberText (s : List Char) : Except Obstacle Reading :=
  let (negative, digits) := Decimal.takeSign s
  match Decimal.takeDigits digits with
  | ([], []) => .error .unreadable
  | (whole, []) =>
    let n : Int := Text.digitsValue whole
    ofInt (if negative then -n else n)
  | (_, '.' :: _) =>
    match Decimal.unsigned? negative digits with
    | some d => ofBinary64 (.ofDecimal d)
    | none => .error .unreadable
  | _ => .error .unreadable

/-- The reading that a text gives. -/
def ofText (s : String) : Except Obstacle Reading :=
  match reading? s.toList with
  | some reading => reading.checked
  | none => ofNumberText s.toList

end SignedOrders.Instant
