import Mathlib.Data.List.Prime
import Mathlib.NumberTheory.LucasPrimality
import Mathlib.Tactic.NormNum.Prime
import SignedOrders.Secp256k1.Curve

/-!
# The residues are a field

The number of residues that the curve computes with is prime (`prime_isPrime`).  By Lucas's test
a number `p` is prime if some power of an element returns to one after `p - 1` steps and not at
any proper part of them.  The parts are told by the prime factors of `p - 1`, and the large ones
among these are shown to be prime in the same way, so that the factors of a number come before
the number.
-/

namespace SignedOrders.Secp256k1

/-- The powers of a residue are computed by repeated squaring. -/
theorem natCast_pow_eq_one_iff {p : ℕ} (large : 1 < p) (a n : ℕ) :
    (a : ZMod p) ^ n = 1 ↔ powMod p a n = 1 := by
  rw [powMod_eq, ← Nat.cast_pow, ← Nat.cast_one, ZMod.natCast_eq_natCast_iff',
    Nat.mod_eq_of_lt large]
  rfl

/-- **Lucas's test**, with the prime factors of the number before `p` and repeated squaring for
the powers. -/
theorem isPrime_of_powers {p : ℕ} (a : ℕ) (factors : List ℕ) (large : 1 < p)
    (primes : ∀ q ∈ factors, q.Prime) (product : factors.prod = p - 1)
    (returns : powMod p a (p - 1) = 1) (sooner : ∀ q ∈ factors, powMod p a ((p - 1) / q) ≠ 1) :
    p.Prime := by
  refine lucas_primality p a ((natCast_pow_eq_one_iff large a _).2 returns) ?_
  intro q prime divides
  rw [← product] at divides
  obtain ⟨r, mem, divides⟩ := (Prime.dvd_prod_iff prime.prime).1 divides
  obtain rfl : q = r := (Nat.prime_dvd_prime_iff_eq prime (primes r mem)).1 divides
  exact (natCast_pow_eq_one_iff large a _).not.2 (sooner q mem)

/-- **The number of residues is prime.** -/
theorem prime_isPrime : Nat.Prime prime := by
  -- of each list of factors, those of many digits stand first
  have digits18 : Nat.Prime 173378833005251801 :=
    isPrime_of_powers 6 [2, 2, 2, 5, 5, 2621, 24809, 13331831] (by decide)
      (by norm_num) (by decide) (by decide +kernel) (by decide +kernel)
  have digits23 : Nat.Prime 22149492674086928081353 :=
    isPrime_of_powers 5 [173378833005251801, 2, 2, 2, 3, 5323] (by decide)
      (List.forall_mem_cons.2 ⟨digits18, by norm_num⟩) (by decide) (by decide +kernel)
      (by decide +kernel)
  have digits24 : Nat.Prime 132896956044521568488119 :=
    isPrime_of_powers 6 [22149492674086928081353, 2, 3] (by decide)
      (List.forall_mem_cons.2 ⟨digits23, by norm_num⟩) (by decide) (by decide +kernel)
      (by decide +kernel)
  have digits39 : Nat.Prime 255515944373312847190720520512484175977 :=
    isPrime_of_powers 3
      [2, 2, 2, 7, 7, 11, 1627, 2657, 4423, 41201, 96557, 7240687, 107590001]
      (by decide) (by norm_num) (by decide) (by decide +kernel) (by decide +kernel)
  have digits72 :
      Nat.Prime 205115282021455665897114700593932402728804164701536103180137503955397371 :=
    isPrime_of_powers 10
      [255515944373312847190720520512484175977, 132896956044521568488119, 2, 3, 5,
        29, 29, 31, 7723] (by decide)
      (List.forall_mem_cons.2 ⟨digits39, List.forall_mem_cons.2 ⟨digits24, by norm_num⟩⟩)
      (by decide) (by decide +kernel) (by decide +kernel)
  exact isPrime_of_powers 3
    [205115282021455665897114700593932402728804164701536103180137503955397371, 2, 3,
      7, 13441] (by decide)
    (List.forall_mem_cons.2 ⟨digits72, by norm_num⟩) (by decide) (by decide +kernel)
    (by decide +kernel)

end SignedOrders.Secp256k1
