import SignedOrders.Decimal.Rounding

/-!
# Arithmetic on decimals

Every operation computes its exact result and then fits it to the working
precision, except `quantize`, which chooses the exponent of its result and has
none when the digits do not fit.

* `normalize` removes the zeros that end the coefficient;
* `scale n` multiplies by `10 ^ n`;
* `quantize mode e` rounds to a multiple of `10 ^ e`;
* `mul` and `div` multiply and divide.
-/

namespace SignedOrders.Decimal

/-- The same value with the shortest coefficient, after fitting; zero has the
exponent zero. -/
def normalize (d : Decimal) : Except Signal Decimal := do
  let r ← d.fit
  if r.isZero then return { r with exponent := 0 }
  let zeros := trailingZeros (maxExponent - r.exponent).toNat r.coefficient
  return { r with coefficient := r.coefficient / tenTo zeros, exponent := r.exponent + zeros }

/-- The largest power of ten that one scaling may multiply or divide by. -/
def maxScale : Nat := 2 * (999999 + precision)

/-- `d * 10 ^ n`. -/
def scale (d : Decimal) (n : Int) : Except Signal Decimal :=
  if n.natAbs > maxScale then .error .invalidOperation
  else fit { d with exponent := d.exponent + n }

/-- The multiple of `10 ^ e` nearest to `d` by the given rounding. -/
def quantize (d : Decimal) (e : Int) (mode : Rounding) : Except Signal Decimal :=
  if e < tiniestExponent ∨ e > maxExponent then .error .invalidOperation
  else if d.isZero then .ok { d with exponent := e }
  else
    let shift := d.exponent - e
    if (width d.coefficient : Int) + shift > precision then .error .invalidOperation
    else
      let c := if shift ≥ 0 then d.coefficient * tenTo shift.toNat
        else dropDigits mode (-shift).toNat d.coefficient
      let r : Decimal := { d with coefficient := c, exponent := e }
      if width c > precision ∨ r.adjusted > maxExponent then .error .invalidOperation
      else .ok r

/-- The product. -/
def mul (a b : Decimal) : Except Signal Decimal :=
  fit ⟨a.negative != b.negative, a.coefficient * b.coefficient, a.exponent + b.exponent⟩

/-- The quotient.  An exact one has an exponent as close as it can to the
difference of the exponents. -/
def div (a b : Decimal) : Except Signal Decimal :=
  let negative := a.negative != b.negative
  let ideal := a.exponent - b.exponent
  if b.isZero then
    .error (if a.isZero then .invalidOperation else .divisionByZero)
  else if a.isZero then fit ⟨negative, 0, ideal⟩
  else
    -- enough digits that the quotient has one more than is kept
    let shift := width b.coefficient + precision + 1 - width a.coefficient
    let numerator := a.coefficient * tenTo shift
    let quotient := numerator / b.coefficient
    if numerator % b.coefficient = 0 then
      let zeros := min shift (trailingZeros (width quotient) quotient)
      fit ⟨negative, quotient / tenTo zeros, ideal - shift + zeros⟩
    else
      -- a last digit that is neither five nor zero stands for the rest
      fit ⟨negative, if quotient % 5 = 0 then quotient + 1 else quotient, ideal - shift⟩

end SignedOrders.Decimal
