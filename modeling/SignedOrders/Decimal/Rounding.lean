import SignedOrders.Decimal.Basic

/-!
# Decimals of limited precision

Results of arithmetic are kept to twenty-eight digits, with first digits between
the powers `-999999` and `999999` of ten.  `fit` brings an exact result into
this range: a longer coefficient is rounded to the nearest, a half to the even
neighbour, and below the range digits are lost one by one.  A result beyond the
range is an **overflow**.

Rounding happens on coefficients: `dropDigits mode k n` removes the last `k`
digits of `n`.
-/

namespace SignedOrders.Decimal

/-- Why an operation has no result. -/
inductive Signal where
  | invalidOperation
  | overflow
  | divisionByZero
  deriving DecidableEq, Repr

/-- What happens to the value of removed digits. -/
inductive Rounding where
  /-- To the nearest, a half to the even neighbour. -/
  | halfEven
  /-- Toward zero. -/
  | down
  deriving DecidableEq, Repr

/-- The number of digits kept. -/
def precision : Nat := 28

/-- The greatest exponent of a first digit. -/
def maxExponent : Int := 999999

/-- The least exponent of a first digit that leaves all digits to the number. -/
def minExponent : Int := -999999

/-- The least exponent of a last digit. -/
def tiniestExponent : Int := minExponent - (precision : Int) + 1

/-- `n / 10 ^ k`, rounded to a whole number. -/
def dropDigits (mode : Rounding) (k n : Nat) : Nat :=
  if width n < k then 0
  else
    let quotient := n / tenTo k
    let rest := n % tenTo k
    match mode with
    | .down => quotient
    | .halfEven =>
      if 2 * rest > tenTo k ∨ (2 * rest = tenTo k ∧ quotient % 2 = 1) then quotient + 1
      else quotient

/-- The number with at most twenty-eight digits nearest to a nonzero one in
range. -/
def shorten (d : Decimal) : Decimal :=
  if width d.coefficient ≤ precision then d
  else
    let k := width d.coefficient - precision
    let c := dropDigits .halfEven k d.coefficient
    if width c ≤ precision then { d with coefficient := c, exponent := d.exponent + k }
    else { d with coefficient := c / 10, exponent := d.exponent + k + 1 }

/-- The exact result `d` as arithmetic returns it. -/
def fit (d : Decimal) : Except Signal Decimal :=
  if d.isZero then
    .ok { d with exponent := max tiniestExponent (min d.exponent maxExponent) }
  else if d.adjusted > maxExponent then .error .overflow
  else if d.adjusted < minExponent ∧ d.exponent < tiniestExponent then
    .ok { d with
      coefficient := dropDigits .halfEven (tiniestExponent - d.exponent).toNat d.coefficient
      exponent := tiniestExponent }
  else
    let r := d.shorten
    if r.adjusted > maxExponent then .error .overflow else .ok r

end SignedOrders.Decimal
