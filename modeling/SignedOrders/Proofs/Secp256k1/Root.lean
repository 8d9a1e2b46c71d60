import Mathlib.FieldTheory.Finite.Basic
import SignedOrders.Proofs.Points
import SignedOrders.Proofs.Secp256k1.Prime

/-!
# The second coordinate is recovered

The number of residues is one less than a multiple of four.  So a square, raised to a quarter of
the next number, gives one of its roots, and of the two roots just one has a given parity: a point
is recovered from its compressed encoding (`decompress?_compress`).
-/

namespace SignedOrders.Secp256k1

variable {x y : ℕ}

theorem rootAt_lt (x : ℕ) : rootAt x < prime := by
  rw [rootAt, powMod_eq]
  exact Nat.mod_lt _ prime_isPrime.pos

theorem natCast_rootAt (x : ℕ) :
    (rootAt x : ZMod prime) = (x * x * x + 7 : ℕ) ^ ((prime + 1) / 4) := by
  rw [rootAt, powMod_eq, ZMod.natCast_mod, ← Nat.cast_pow]
  rfl

/-- **The candidate is a root** where there is one. -/
theorem rootAt_eq_or_neg (h : Curve.secp256k1.HasPoint x y) :
    (rootAt x : ZMod prime) = y ∨ (rootAt x : ZMod prime) = -y := by
  have : Fact prime.Prime := ⟨prime_isPrime⟩
  have square : ((x * x * x + 7 : ℕ) : ZMod prime) = y ^ 2 := by
    rw [sq, ← Nat.cast_mul, ZMod.natCast_eq_natCast_iff']
    exact h.equation.symm
  have quarters : 2 * ((prime + 1) / 4 * 2) = prime + 1 := by decide
  rw [← sq_eq_sq_iff_eq_or_eq_neg]
  calc (rootAt x : ZMod prime) ^ 2
      = (y : ZMod prime) ^ (2 * ((prime + 1) / 4 * 2)) := by
        rw [natCast_rootAt, square, ← pow_mul, ← pow_mul]
    _ = y ^ 2 := by rw [quarters, pow_succ, ZMod.pow_card, sq]

/-- The candidate is the coordinate or its opposite. -/
theorem rootAt_cases (h : Curve.secp256k1.HasPoint x y) :
    rootAt x = y ∨ rootAt x + y = prime := by
  have root_lt := rootAt_lt x
  have second_lt : y < prime := h.second_lt
  rcases rootAt_eq_or_neg h with same | opposite
  · rw [ZMod.natCast_eq_natCast_iff', Nat.mod_eq_of_lt root_lt, Nat.mod_eq_of_lt second_lt] at same
    exact .inl same
  · rw [← add_eq_zero_iff_eq_neg, ← Nat.cast_add, ZMod.natCast_eq_zero_iff] at opposite
    obtain ⟨k, sum⟩ := opposite
    have few : k < 2 := by
      by_contra many
      have := Nat.mul_le_mul_left prime (not_lt.1 many)
      omega
    interval_cases k <;> omega

/-- The parity tells the two roots apart. -/
theorem secondCoordinate_eq (h : Curve.secp256k1.HasPoint x y) :
    secondCoordinate (y % 2 == 1) x = y := by
  have odd : prime % 2 = 1 := by decide
  have root_lt := rootAt_lt x
  unfold secondCoordinate
  rcases rootAt_cases h with same | opposite
  · rw [same, if_pos rfl]
  · have parity : ¬((rootAt x % 2 == 1) = (y % 2 == 1)) := by
      rw [Bool.eq_iff_iff, beq_iff_eq, beq_iff_eq]
      omega
    rw [if_neg parity, Nat.sub_eq_of_eq_add' opposite.symm]
    exact Nat.mod_eq_of_lt h.second_lt

/-- **A point is recovered from its compressed encoding.** -/
theorem decompress?_compress (h : Curve.secp256k1.HasPoint x y) :
    decompress? (compress x y) = some (Octets.pair x y) := by
  have bound := Curve.lt_capacity_of_lt_modulus h.first_lt
  have parity : decide (parityOctet y = 0x03) = (y % 2 == 1) := by
    rw [Bool.eq_iff_iff, decide_eq_true_iff, beq_iff_eq, parityOctet_eq_three_iff]
  simp only [decompress?, compress, parityOctet_cases y, if_true, Octets.toNat_ofNat .big bound,
    parity, secondCoordinate_eq h]
  rfl

end SignedOrders.Secp256k1
