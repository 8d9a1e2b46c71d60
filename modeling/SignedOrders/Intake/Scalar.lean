import SignedOrders.Binary64.Shortest
import SignedOrders.Decimal.Reader
import SignedOrders.Instant.Reader
import SignedOrders.Intake.Checked
import SignedOrders.Intake.Integer

/-!
# Checks of single values

Numbers, flags and deadlines may be given in more than one form: an integer also
as text, as a number without a fraction, or as a flag; a flag also as one of some
words; a decimal as text or number.  Each check says which forms it takes.
-/

namespace SignedOrders.Intake

/-- A text. -/
def text : Json → Checked String
  | .str s => .accepted s
  | _ => refuse .textExpected

/-- A text that is one of some names. -/
def named (ofName? : String → Option α) : Json → Checked α
  | .str s =>
    match ofName? s with
    | some a => .accepted a
    | none => refuse .notAmongNames
  | _ => refuse .notAmongNames

/-! ## Integers -/

/-- The number of integers that are not negative in a signed word of sixty-four bits. -/
def wordBound : Nat := 0x8000000000000000

/-- An integer.  A number with a point has to lie within a word. -/
def integer : Json → Checked Int
  | .int n => .accepted n
  | .bool b => .accepted (if b then 1 else 0)
  | .float x =>
    match x, x.toInt? with
    | _, some n => if n.natAbs < wordBound then .accepted n else refuse .integerTooLarge
    | .finite .., none => refuse .fractionalInteger
    | _, none => refuse .infiniteDecimal
  | .str s =>
    match Integer.ofText s with
    | .ok n => .accepted n
    | .error reason => refuse reason
  | _ => refuse .integerExpected

/-! ## Flags -/

/-- The words for a set flag. -/
def setWords : List String := ["1", "on", "t", "true", "y", "yes"]

/-- The words for an unset flag. -/
def unsetWords : List String := ["0", "off", "f", "false", "n", "no"]

/-- The flag that an integer within a word stands for. -/
def flagOfInt (n : Int) : Checked Bool :=
  if n = 0 then .accepted false else if n = 1 then .accepted true else refuse .unreadableFlag

/-- A flag.  Numbers beyond a word are not taken for flags at all. -/
def flag : Json → Checked Bool
  | .bool b => .accepted b
  | .int n => if -(wordBound : Int) ≤ n ∧ n < wordBound then flagOfInt n else refuse .flagExpected
  | .float x =>
    match x.toInt? with
    | some n => if n.natAbs < wordBound then flagOfInt n else refuse .flagExpected
    | none => refuse .flagExpected
  | .str s =>
    let word := s.map Char.toLower
    if setWords.contains word then .accepted true
    else if unsetWords.contains word then .accepted false
    else refuse .unreadableFlag
  | _ => refuse .flagExpected

/-! ## Decimals -/

/-- A figure that is a number. -/
def finite : Option Figure → Checked Decimal
  | some (.number d) => .accepted d
  | some _ => refuse .infiniteDecimal
  | none => refuse .unreadableDecimal

/-- A decimal.  A binary number stands for its shortest text. -/
def decimal : Json → Checked Decimal
  | .int n => .accepted (.ofInt n)
  | .float x => finite (Figure.ofText? x.toText)
  | .str s => finite (Figure.ofText? s)
  | _ => refuse .decimalExpected

/-- A decimal greater than zero. -/
def positiveDecimal (v : Json) : Checked Decimal :=
  (decimal v).andThen fun d => if d.isPositive then .accepted d else refuse .tooSmall

/-! ## Readings of clocks -/

/-- Integers from here on are rounded to no binary number. -/
def integerBound : Nat := Binary64.twoTo 1024 - Binary64.twoTo 970

/-- What a clock shows. -/
def reading : Json → Checked Instant.Reading
  | .int n =>
    if n.natAbs ≥ integerBound then refuse .timeExpected
    else
      match Instant.ofInt n with
      | .ok t => .accepted t
      | .error _ => refuse .timeOutOfRange
  | .float x =>
    match Instant.ofBinary64 x with
    | .ok t => .accepted t
    | .error _ => refuse .timeOutOfRange
  | .str s =>
    match Instant.ofText s with
    | .ok t => .accepted t
    | .error .yearZero => refuse .timeOutOfRange
    | .error .unreadable => refuse .unreadableTime
  | _ => refuse .timeExpected

end SignedOrders.Intake
