/-!
# Decimal numbers

A **decimal** is a sign, a coefficient and a power of ten.  Decimals with one
value and different exponents are different: the exponent says how many places
are written, and zero keeps a sign.

A **figure** is what a text in decimal notation can denote: a decimal, an
infinity, or a text that is expressly not a number.
-/

namespace SignedOrders

/-- The number `coefficient * 10 ^ exponent`, negated when `negative`. -/
structure Decimal where
  negative : Bool
  coefficient : Nat
  exponent : Int
  deriving DecidableEq, Repr

/-- What a text in decimal notation can denote. -/
inductive Figure where
  | number (value : Decimal)
  | infinite (negative : Bool)
  /-- Not a number; `payload` is the number written after the letters. -/
  | nan (negative signaling : Bool) (payload : Nat)
  deriving DecidableEq, Repr

namespace Decimal

/-- The power `k` of ten. -/
def tenTo (k : Nat) : Nat := Nat.pow 10 k

theorem tenTo_zero : tenTo 0 = 1 := rfl

theorem tenTo_succ (k : Nat) : tenTo (k + 1) = tenTo k * 10 := rfl

theorem tenTo_pos (k : Nat) : 0 < tenTo k := Nat.pow_pos (by decide)

theorem tenTo_add (j k : Nat) : tenTo (j + k) = tenTo j * tenTo k := Nat.pow_add 10 j k

/-- The number of decimal digits of `n`; zero has one. -/
def width (n : Nat) : Nat := (Nat.toDigits 10 n).length

theorem width_pos (n : Nat) : 0 < width n := Nat.length_toDigits_pos

/-- A positive number of digits suffices iff the number is below that power of
ten. -/
theorem width_le_iff {n k : Nat} (hk : 0 < k) : width n ≤ k ↔ n < tenTo k :=
  Nat.length_toDigits_le_iff (by decide) hk

/-- The exponent of the first digit. -/
def adjusted (d : Decimal) : Int := d.exponent + (width d.coefficient : Int) - 1

/-- The integer `n` as a decimal. -/
def ofInt (n : Int) : Decimal := ⟨n < 0, n.natAbs, 0⟩

/-- The value is zero, whatever the sign and the exponent. -/
def isZero (d : Decimal) : Bool := d.coefficient == 0

/-- The value is less than zero. -/
def isNegative (d : Decimal) : Bool := d.negative && !d.isZero

/-- The value is greater than zero. -/
def isPositive (d : Decimal) : Bool := !d.negative && !d.isZero

/-- The value is greater than the number `bound`.  Numbers with a first digit far
to the left or right of the bound's are told apart by it alone. -/
def exceeds (d : Decimal) (bound : Nat) : Bool :=
  d.isPositive &&
    (if d.adjusted > width bound then true
     else if d.adjusted < 0 then bound == 0
     else if d.exponent ≥ 0 then decide (d.coefficient * tenTo d.exponent.toNat > bound)
     else decide (d.coefficient > bound * tenTo (-d.exponent).toNat))

/-- The integral part: the value without its fractional digits. -/
def truncate (d : Decimal) : Int :=
  let magnitude :=
    if d.exponent ≥ 0 then d.coefficient * tenTo d.exponent.toNat
    else if d.adjusted < 0 then 0
    else d.coefficient / tenTo (-d.exponent).toNat
  if d.negative then -(magnitude : Int) else magnitude

/-- The number of zeros that end the digits of `n`, of at most `limit` that are
looked at. -/
def trailingZeros (limit n : Nat) : Nat :=
  match limit with
  | 0 => 0
  | k + 1 => if n % 10 = 0 then trailingZeros k (n / 10) + 1 else 0

end Decimal

end SignedOrders
