import SignedOrders.Decimal.Reader
import SignedOrders.Intake.Issue
import SignedOrders.Text.Pieces

/-!
# Integers written as text

The **plain** notation of an integer is a hyphen if it is negative, and its digits,
with no zero in front.  A text in another notation is first made plain, as far as
that goes: it loses its padding, a plus sign, leading zeros, a fraction of zeros
alone, and single underscores inside.  A hyphen may also follow leading zeros.
-/

namespace SignedOrders.Intake.Integer

/-- The most characters of an integer in plain notation. -/
def longest : Nat := 4300

/-- The number that the plain digits `s` write; `room` characters are allowed for it. -/
def plainDigits (room : Nat) (s : List Char) : Except Reason Nat :=
  let (digits, rest) := Decimal.takeDigits s
  if digits = [] ∨ (digits.head? = some '0' ∧ digits ≠ ['0']) then .error .unreadableInteger
  else if digits.length > room then .error .integerTooLarge
  else if rest = [] then .ok (Text.digitsValue digits)
  else .error .unreadableInteger

/-- The integer that a text in plain notation writes. -/
def plain : List Char → Except Reason Int
  | '-' :: s => (plainDigits (longest - 1) s).map fun n => -(n : Int)
  | s => (plainDigits longest s).map fun n => (n : Int)

/-! ## Other notations -/

/-- What follows leading zeros and the underscores among them, the last of which is
`last`.  That one stays if nothing or a fraction follows. -/
def afterZeros? (last : Char) : List Char → Option (List Char)
  | [] => some [last]
  | c :: s =>
    if c = '0' ∨ c = '_' then afterZeros? c s
    else if c.isDigit ∨ c = '-' then some (c :: s)
    else if c = '.' then some (last :: c :: s)
    else none

/-- A text that starts with a digit, without leading zeros. -/
def dropZeros? : List Char → Option (List Char)
  | [] => none
  | c :: s =>
    if c = '0' then afterZeros? c s
    else if c.isDigit then some (c :: s)
    else none

/-- A text without its fraction, if that is zeros alone. -/
def dropFraction (s : List Char) : List Char :=
  match s.dropWhile (· ≠ '.') with
  | '.' :: '0' :: zeros => if zeros.all (· = '0') then s.takeWhile (· ≠ '.') else s
  | _ => s

/-- A text without its underscores, if each of them stands alone and inside. -/
def dropUnderscores (s : List Char) : List Char :=
  let pieces := Text.split ['_'] s
  if [] ∈ pieces then s else pieces.flatten

/-- A text made plain, as far as that goes. -/
def tidied? (s : List Char) : Option (List Char) :=
  let (negative, s) := Decimal.takeSign (Text.trimBy Text.isWhiteSpace s)
  (dropZeros? s).map fun s =>
    let s := dropUnderscores (dropFraction s)
    if negative then '-' :: s else s

/-- The integer that a text writes. -/
def ofText (s : String) : Except Reason Int :=
  match plain s.toList with
  | .error .unreadableInteger =>
    match tidied? s.toList with
    | some t => plain t
    | none => .error .unreadableInteger
  | r => r

end SignedOrders.Intake.Integer
