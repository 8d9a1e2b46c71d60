import SignedOrders.Decimal.Basic
import SignedOrders.Text.Blank
import SignedOrders.Text.Digit

/-!
# Reading decimal notation

A figure is written as a sign, digits with at most one point among or around
them, and a power of ten after the letter `e`; or by the words for infinity and
for not a number.  Blanks around it and underscores in it do not count, and
digits may be of any script.  Exponents are limited to nineteen digits
(`Decimal.isReadable`).
-/

namespace SignedOrders

namespace Decimal

/-- The digits that `s` starts with, and the rest. -/
def takeDigits (s : List Char) : List Char × List Char :=
  (s.takeWhile Char.isDigit, s.dropWhile Char.isDigit)

/-- A leading minus sign, if any, and what follows the sign. -/
def takeSign : List Char → Bool × List Char
  | '-' :: s => (true, s)
  | '+' :: s => (false, s)
  | s => (false, s)

/-- The power of ten that ends a number; none when the rest is not one. -/
def exponentPart? : List Char → Option Int
  | [] => some 0
  | c :: s =>
    if c = 'e' ∨ c = 'E' then
      let (negative, digits) := takeSign s
      if digits = [] ∨ !digits.all Char.isDigit then none
      else some (if negative then -(Text.digitsValue digits : Int) else Text.digitsValue digits)
    else none

/-- The decimal that unsigned digits with an optional point and exponent write. -/
def unsigned? (negative : Bool) (s : List Char) : Option Decimal :=
  let (whole, rest) := takeDigits s
  let (fraction, rest) :=
    match rest with
    | '.' :: rest => takeDigits rest
    | rest => ([], rest)
  if whole = [] ∧ fraction = [] then none
  else
    (exponentPart? rest).map fun e =>
      ⟨negative, Text.digitsValue (whole ++ fraction), e - fraction.length⟩

/-- The exponents of the first and the last digit are within reach. -/
def isReadable (d : Decimal) : Bool :=
  -1999999999999999997 ≤ d.exponent && d.adjusted ≤ 999999999999999999

end Decimal

namespace Figure

/-- `s` without its leading word `word`, in whatever case it is written. -/
def dropWord? : List Char → List Char → Option (List Char)
  | [], s => some s
  | _ :: _, [] => none
  | a :: word, c :: s => if c.toLower = a then dropWord? word s else none

/-- The figure that `s` writes after its sign. -/
def unsigned? (negative : Bool) (s : List Char) : Option Figure :=
  if dropWord? "infinity".toList s = some [] ∨ dropWord? "inf".toList s = some [] then
    some (.infinite negative)
  else
    match dropWord? "nan".toList s, dropWord? "snan".toList s with
    | some digits, _ =>
      if digits.all Char.isDigit then some (.nan negative false (Text.digitsValue digits)) else none
    | none, some digits =>
      if digits.all Char.isDigit then some (.nan negative true (Text.digitsValue digits)) else none
    | none, none =>
      match Decimal.unsigned? negative s with
      | some d => if d.isReadable then some (.number d) else none
      | none => none

/-- `s` without its padding and underscores, and with its digits in ASCII. -/
def plainChars (s : List Char) : List Char :=
  ((Text.trim s).filter (· ≠ '_')).map Text.asciiDigit

/-- The figure that a text denotes. -/
def ofText? (s : String) : Option Figure :=
  let (negative, rest) := Decimal.takeSign (plainChars s.toList)
  unsigned? negative rest

end Figure

end SignedOrders
