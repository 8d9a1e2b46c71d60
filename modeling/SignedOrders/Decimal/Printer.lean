import SignedOrders.Decimal.Basic

/-!
# Writing decimals

`toPlain` writes a decimal with all its places and never a power of ten.
`toText` does so only for exponents up to zero and a first digit not far behind
the point, and otherwise writes one digit, the point, the others, and the power.
-/

namespace SignedOrders

namespace Decimal

/-- The decimal digits of `n`. -/
def digits (n : Nat) : List Char := Nat.toDigits 10 n

/-- The sign that is written before a number. -/
def signText (negative : Bool) : List Char := if negative then ['-'] else []

/-- `c` with a point before its last `places` digits, and a zero before the point
if no digit is left there. -/
def pointed (c places : Nat) : List Char :=
  if places = 0 then digits c
  else
    let ds := digits c
    let ds := List.replicate (places + 1 - ds.length) '0' ++ ds
    ds.take (ds.length - places) ++ '.' :: ds.drop (ds.length - places)

/-- `d` in positional notation, as characters. -/
def plainChars (d : Decimal) : List Char :=
  signText d.negative ++
    if d.exponent ≤ 0 then pointed d.coefficient (-d.exponent).toNat
    else if d.coefficient = 0 then ['0']
    else digits d.coefficient ++ List.replicate d.exponent.toNat '0'

/-- `d` in positional notation. -/
def toPlain (d : Decimal) : String := String.ofList d.plainChars

/-- A signed integer, its sign always written. -/
def signedDigits (n : Int) : List Char :=
  (if n < 0 then '-' else '+') :: digits n.natAbs

/-- `d` in positional or scientific notation, as characters. -/
def chars (d : Decimal) : List Char :=
  if d.exponent ≤ 0 ∧ d.adjusted ≥ -6 then d.plainChars
  else
    let mantissa :=
      match digits d.coefficient with
      | c :: c' :: cs => c :: '.' :: c' :: cs
      | cs => cs
    signText d.negative ++ mantissa ++ 'E' :: signedDigits d.adjusted

/-- `d` in positional or scientific notation, whichever suits its size. -/
def toText (d : Decimal) : String := String.ofList d.chars

end Decimal

namespace Figure

/-- A figure that is not a number, in words. -/
def wordChars : Figure → List Char
  | .number _ => []
  | .infinite negative => Decimal.signText negative ++ "Infinity".toList
  | .nan negative signaling payload =>
    Decimal.signText negative ++ (if signaling then "sNaN" else "NaN").toList ++
      if payload = 0 then [] else Decimal.digits payload

/-- The text of a figure, in scientific notation where that suits its size. -/
def toText : Figure → String
  | .number d => d.toText
  | f => String.ofList f.wordChars

/-- The text of a figure in positional notation. -/
def toPlain : Figure → String
  | .number d => d.toPlain
  | f => String.ofList f.wordChars

end Figure

end SignedOrders
