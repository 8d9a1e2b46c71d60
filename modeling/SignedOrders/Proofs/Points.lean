import Mathlib.Data.Nat.Notation
import SignedOrders.Curve
import SignedOrders.Secp256k1.PublicKey

/-!
# Points and their encodings

A point of either curve is a pair of residues whose second squares to the value of a cubic at the
first.  A point has a compressed encoding, from which only the parity of the second coordinate is
known, and one by both coordinates behind a mark; on secp256k1 both coordinates alone are in use
as well.
-/

namespace SignedOrders

namespace Curve

/-- The number of the residues that coordinates are. -/
def modulus : Curve → ℕ
  | secp256k1 => Secp256k1.prime
  | secp256r1 => 0xffffffff00000001000000000000000000000000ffffffffffffffffffffffff

/-- The cubic of the curve, where the linear coefficient of secp256r1 is minus three. -/
def cubic : Curve → ℕ → ℕ
  | secp256k1, x => x * x * x + 7
  | secp256r1, x => x * x * x + (secp256r1.modulus - 3) * x +
      0x5ac635d8aa3a93e7b3ebbd55769886bc651d06b0cc53b0f63bce3c3e27d2604b

/-- The pair is a point of the curve. -/
structure HasPoint (curve : Curve) (x y : ℕ) : Prop where
  first_lt : x < curve.modulus
  second_lt : y < curve.modulus
  equation : y * y % curve.modulus = curve.cubic x % curve.modulus

instance (curve : Curve) (x y : ℕ) : Decidable (curve.HasPoint x y) :=
  decidable_of_iff
    (x < curve.modulus ∧ y < curve.modulus ∧ y * y % curve.modulus = curve.cubic x % curve.modulus)
    ⟨fun ⟨hx, hy, h⟩ => ⟨hx, hy, h⟩, fun h => ⟨h.first_lt, h.second_lt, h.equation⟩⟩

/-- The generators are points. -/
example :
    secp256k1.HasPoint Secp256k1.Point.generator.x Secp256k1.Point.generator.y ∧
      secp256r1.HasPoint 0x6b17d1f2e12c4247f8bce6e563a440f277037d812deb33a0f4a13945d898c296
        0x4fe342e2fe1a7f9b8ee7eb4a7c0f9e162bce33576b315ececbb6406837bf51f5 := by
  decide

end Curve

/-! ## Encodings -/

namespace Octets

/-- Octets are the last octets of the number that they write. -/
theorem littleEndian_littleEndianValue (octets : Octets) :
    littleEndian octets.length (littleEndianValue octets) = octets ∧
      littleEndianValue octets < capacity octets.length := by
  induction octets with
  | nil => exact ⟨rfl, Nat.one_pos⟩
  | cons octet octets ih =>
    have value : littleEndianValue (octet :: octets) =
        octet.toNat + 256 * littleEndianValue octets := rfl
    have power : capacity (octets.length + 1) = capacity octets.length * 256 := rfl
    have bound := octet.toNat_lt
    have first : UInt8.ofNat (octet.toNat + 256 * littleEndianValue octets) = octet := by
      rw [← UInt8.toNat_inj, UInt8.toNat_ofNat']
      omega
    have rest : (octet.toNat + 256 * littleEndianValue octets) / 256 =
        littleEndianValue octets := by omega
    rw [List.length_cons, littleEndian, value, first, rest, ih.1, power]
    exact ⟨rfl, by omega⟩

/-- **Octets write a number.** -/
theorem exists_ofNat {octets : Octets} {width : ℕ} (h : octets.length = width) :
    ∃ n < capacity width, octets = ofNat .big width n := by
  obtain ⟨written, bound⟩ := littleEndian_littleEndianValue octets.reverse
  rw [List.length_reverse, h] at written bound
  refine ⟨_, bound, ?_⟩
  rw [ofNat, written, List.reverse_reverse]

/-- The octets of two coordinates. -/
def pair (x y : ℕ) : Octets := ofNat .big 32 x ++ ofNat .big 32 y

@[simp] theorem length_pair (x y : ℕ) : (pair x y).length = 64 := by simp [pair]

/-- Sixty-four octets are those of two coordinates. -/
theorem exists_pair {octets : Octets} (h : octets.length = 64) :
    ∃ x < capacity 32, ∃ y < capacity 32, octets = pair x y := by
  have taken : (octets.take 32).length = 32 := by simp [h]
  have dropped : (octets.drop 32).length = 32 := by simp [h]
  obtain ⟨x, hx, first⟩ := exists_ofNat taken
  obtain ⟨y, hy, second⟩ := exists_ofNat dropped
  exact ⟨x, hx, y, hy, by rw [pair, ← first, ← second, List.take_append_drop]⟩

theorem pair_inj {x y u v : ℕ} (hx : x < capacity 32) (hy : y < capacity 32)
    (hu : u < capacity 32) (hv : v < capacity 32) (h : pair x y = pair u v) : x = u ∧ y = v := by
  obtain ⟨first, second⟩ := List.append_inj h (by simp)
  exact ⟨ofNat_inj .big hx hu first, ofNat_inj .big hy hv second⟩

end Octets

namespace Secp256k1

@[simp] theorem length_compress (x y : ℕ) : (compress x y).length = 33 := by simp [compress]

theorem parityOctet_cases (y : ℕ) : parityOctet y = 0x02 ∨ parityOctet y = 0x03 := by
  unfold parityOctet
  split <;> simp

theorem parityOctet_eq_three_iff {y : ℕ} : parityOctet y = 0x03 ↔ y % 2 = 1 := by
  unfold parityOctet
  split <;> simp_all

end Secp256k1

namespace Curve

open Octets Secp256k1

theorem lt_capacity_of_lt_modulus {curve : Curve} {x : ℕ} (h : x < curve.modulus) :
    x < capacity 32 := by
  refine Nat.lt_trans h ?_
  cases curve <;> decide

/-- The encodings of a point of the curve. -/
def encodings : Curve → ℕ → ℕ → List Octets
  | secp256k1, x, y => [compress x y, 0x04 :: pair x y, pair x y]
  | secp256r1, x, y => [compress x y, 0x04 :: pair x y]

end Curve

end SignedOrders
