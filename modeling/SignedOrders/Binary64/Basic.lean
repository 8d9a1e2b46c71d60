import SignedOrders.Decimal.Basic

/-!
# Binary floating-point numbers

The numbers of the IEEE format binary64, held exactly as `mantissa * 2 ^ exponent`
with a mantissa below `2 ^ 53` and an exponent of at least `-1074`.  `ofRatio`
rounds a quotient of naturals to the nearest of them, a tie to the even mantissa,
and everything else here is exact.
-/

namespace SignedOrders

/-- A binary64 datum. -/
inductive Binary64 where
  | finite (negative : Bool) (mantissa : Nat) (exponent : Int)
  | infinite (negative : Bool)
  | nan
  deriving DecidableEq, Repr

namespace Binary64

/-- The power `k` of two. -/
def twoTo (k : Nat) : Nat := Nat.pow 2 k

/-- The number of binary digits of a mantissa. -/
def mantissaDigits : Nat := 53

/-- The least exponent. -/
def leastExponent : Int := -1074

/-- The greatest exponent. -/
def greatestExponent : Int := 971

/-- A zero. -/
def zero (negative : Bool) : Binary64 := .finite negative 0 leastExponent

/-- `num / den`, rounded to the nearest whole number, a half to the even one. -/
def nearest (num den : Nat) : Nat :=
  let quotient := num / den
  let rest := num % den
  if 2 * rest > den ∨ (2 * rest = den ∧ quotient % 2 = 1) then quotient + 1 else quotient

/-- `num / (den * 2 ^ e)` as a pair of naturals. -/
def shifted (num den : Nat) (e : Int) : Nat × Nat :=
  if e ≥ 0 then (num, den * twoTo e.toNat) else (num * twoTo (-e).toNat, den)

/-- The datum nearest to `num / den`, for a positive denominator. -/
def ofRatio (negative : Bool) (num den : Nat) : Binary64 :=
  if num = 0 then zero negative
  else
    let guess : Int := (Nat.log2 num : Int) - Nat.log2 den - mantissaDigits
    let (n, d) := shifted num den guess
    let e := max leastExponent (if n / d ≥ twoTo mantissaDigits then guess + 1 else guess)
    let (n, d) := shifted num den e
    let m := nearest n d
    let (m, e) := if m = twoTo mantissaDigits then (twoTo (mantissaDigits - 1), e + 1) else (m, e)
    if m = 0 then zero negative
    else if e > greatestExponent then .infinite negative
    else .finite negative m e

/-- The datum nearest to a decimal. -/
def ofDecimal (d : Decimal) : Binary64 :=
  if d.isZero then zero d.negative
  else if d.adjusted > 310 then .infinite d.negative
  else if d.adjusted < -330 then zero d.negative
  else if d.exponent ≥ 0 then ofRatio d.negative (d.coefficient * Decimal.tenTo d.exponent.toNat) 1
  else ofRatio d.negative d.coefficient (Decimal.tenTo (-d.exponent).toNat)

/-- The magnitude of a finite datum as a quotient of naturals. -/
def ratio (mantissa : Nat) (exponent : Int) : Nat × Nat :=
  if exponent ≥ 0 then (mantissa * twoTo exponent.toNat, 1) else (mantissa, twoTo (-exponent).toNat)

/-- `num / den`, rounded to the nearest datum, as a quotient of naturals; zero for a
quotient that is beyond all data. -/
def rounded (num den : Nat) : Nat × Nat :=
  match ofRatio false num den with
  | .finite _ m e => ratio m e
  | _ => (0, 1)

/-- The integer that the datum is equal to. -/
def toInt? : Binary64 → Option Int
  | .finite negative m e =>
    let (num, den) := ratio m e
    if num % den = 0 then
      some (if negative then -((num / den : Nat) : Int) else (num / den : Nat))
    else none
  | _ => none

end Binary64

end SignedOrders
