import SignedOrders.Decimal.Printer
import SignedOrders.Instant.Calendar

/-!
# Instants

An instant is a count of microseconds from the start of 1970 in universal time.
It is written as the date and time of day in universal time, with six places for
the fraction of a second if there is one; an instant outside of the years one to
9999 has no text.

A clock shows a `Reading`: a date and a time of day, and perhaps by how much it
differs from universal time.
-/

namespace SignedOrders

/-- A moment, in microseconds from the start of 1970 in universal time. -/
structure Instant where
  microseconds : Int
  deriving DecidableEq, Repr

namespace Instant

/-- Microseconds in a second. -/
def perSecond : Nat := 1000000

/-- Microseconds in a day. -/
def perDay : Nat := 86400 * perSecond

/-- The instant at which a clock that is `offset` seconds ahead of universal time
shows the given date and microseconds since midnight. -/
def ofLocal (date : Date) (sinceMidnight : Nat) (offset : Int) : Instant :=
  ⟨((date.dayNumber : Int) - Date.epochDay) * perDay + sinceMidnight - offset * perSecond⟩

/-- What a clock shows. -/
structure Reading where
  date : Date
  /-- The time of day in microseconds since midnight. -/
  sinceMidnight : Nat
  /-- By how many seconds the clock is ahead of universal time, if that is said. -/
  offset : Option Int
  deriving DecidableEq, Repr

/-- The instant at which a clock shows the reading.  A clock of which nothing is said
is taken for one of universal time. -/
def Reading.instant (reading : Reading) : Instant :=
  ofLocal reading.date reading.sinceMidnight (reading.offset.getD 0)

/-- The digits of `n`, with zeros in front up to the given width. -/
def padded (width n : Nat) : List Char :=
  let ds := Decimal.digits n
  List.replicate (width - ds.length) '0' ++ ds

/-- A date as year, month and day, joined by hyphens. -/
def dateChars (date : Date) : List Char :=
  padded 4 date.year ++ '-' :: padded 2 date.month ++ '-' :: padded 2 date.day

/-- A time of day, with the fraction of a second if there is one. -/
def timeChars (sinceMidnight : Nat) : List Char :=
  let seconds := sinceMidnight / perSecond
  let fraction := sinceMidnight % perSecond
  padded 2 (seconds / 3600) ++ ':' :: padded 2 (seconds / 60 % 60) ++
    ':' :: padded 2 (seconds % 60) ++
    if fraction = 0 then [] else '.' :: padded 6 fraction

/-- The text of an instant in universal time. -/
def toText? (instant : Instant) : Option String :=
  let total := instant.microseconds + (Date.epochDay * perDay : Nat)
  if 0 ≤ total ∧ total < (Date.dayCount * perDay : Nat) then
    let n := total.toNat
    some (String.ofList
      (dateChars (Date.ofDayNumber (n / perDay)) ++ 'T' :: timeChars (n % perDay) ++ ['Z']))
  else none

end Instant

end SignedOrders
