import SignedOrders.Proofs.Decimal.Value

/-!
# Rounding decimals

Removing digits gives the nearest multiple, and a multiple that is nearer than half a
step is the only one it can give.  So rounding to the nearest of two scales, one after
the other, gives what rounding to the coarser one gives, if the first result is on the
coarser scale already (`dropDigits_of_dropDigits`).

The lemmas on `shorten` and `fit` say what each of them does to the magnitude, and when
each leaves a decimal as it is.
-/

namespace SignedOrders.Decimal

/-! ## Removing digits -/

section DropDigits

variable {j k n q : ℕ}

/-- The multiple that is left is at most half a step away. -/
theorem dropDigits_near (k n : ℕ) :
    2 * n ≤ 2 * (dropDigits .halfEven k n * tenTo k) + tenTo k ∧
      2 * (dropDigits .halfEven k n * tenTo k) ≤ 2 * n + tenTo k := by
  unfold dropDigits
  split
  · next short =>
    have below : tenTo (width n + 1) ≤ tenTo k := tenTo_le_iff.2 short
    have := lt_tenTo_width n
    rw [tenTo_succ] at below
    omega
  · have whole := Nat.div_add_mod n (tenTo k)
    have rest := Nat.mod_lt n (tenTo_pos k)
    rw [Nat.mul_comm] at whole
    dsimp only
    split
    · rw [Nat.add_mul]
      omega
    · omega

/-- A multiple less than half a step away is the one that is left. -/
theorem dropDigits_eq_of_near (above : 2 * n < 2 * (q * tenTo k) + tenTo k)
    (below : 2 * (q * tenTo k) < 2 * n + tenTo k) : dropDigits .halfEven k n = q := by
  obtain ⟨above', below'⟩ := dropDigits_near k n
  generalize dropDigits .halfEven k n = p at above' below'
  rcases Nat.lt_trichotomy p q with less | same | more
  · have step := Nat.mul_le_mul_right (tenTo k) (Nat.succ_le_of_lt less)
    rw [Nat.succ_mul] at step
    omega
  · exact same
  · have step := Nat.mul_le_mul_right (tenTo k) (Nat.succ_le_of_lt more)
    rw [Nat.succ_mul] at step
    omega

theorem dropDigits_mul_tenTo (k q : ℕ) : dropDigits .halfEven k (q * tenTo k) = q := by
  have pos := tenTo_pos k
  exact dropDigits_eq_of_near (by omega) (by omega)

/-- **Rounding twice is rounding once**, when the first rounding has reached the coarser
scale. -/
theorem dropDigits_of_dropDigits (h : j ≤ k)
    (hq : dropDigits .halfEven j n = q * tenTo (k - j)) : dropDigits .halfEven k n = q := by
  rcases h.eq_or_lt with rfl | hlt
  · rw [hq, Nat.sub_self, tenTo_zero, Nat.mul_one]
  · -- half a step of the finer scale is less than half a step of the coarser one
    obtain ⟨above, below⟩ := dropDigits_near j n
    have finer : tenTo j < tenTo k := tenTo_lt_iff.2 hlt
    have scale : q * tenTo (k - j) * tenTo j = q * tenTo k := by
      rw [Nat.mul_assoc, ← tenTo_add, Nat.sub_add_cancel h]
    rw [hq, scale] at above below
    exact dropDigits_eq_of_near (by omega) (by omega)

/-- No more digits are left than there were beside the removed ones. -/
theorem dropDigits_le (h : n ≤ tenTo (j + k)) : dropDigits .halfEven k n ≤ tenTo j := by
  obtain ⟨-, below⟩ := dropDigits_near k n
  rw [tenTo_add] at h
  by_contra more
  have step := Nat.mul_le_mul_right (tenTo k) (Nat.succ_le_of_lt (not_le.1 more))
  rw [Nat.succ_mul] at step
  have pos := tenTo_pos k
  omega

end DropDigits

/-! ## Fitting -/

theorem shorten_of_le {d : Decimal} (h : width d.coefficient ≤ precision) : d.shorten = d := by
  rw [shorten, if_pos h]

@[simp] theorem shorten_negative (d : Decimal) : d.shorten.negative = d.negative := by
  unfold shorten
  dsimp only
  split
  · rfl
  · split <;> rfl

/-- A long coefficient is rounded once; a digit that is carried to the front leaves the
value as it is. -/
theorem shorten_magnitude {d : Decimal} (h : precision < width d.coefficient) :
    d.shorten.magnitude =
      dropDigits .halfEven (width d.coefficient - precision) d.coefficient *
        10 ^ (d.exponent + (width d.coefficient - precision : ℕ)) := by
  have most : dropDigits .halfEven (width d.coefficient - precision) d.coefficient ≤
      tenTo precision := by
    refine dropDigits_le ?_
    rw [Nat.add_sub_cancel' h.le]
    exact (lt_tenTo_width _).le
  rw [shorten, if_neg (by omega)]
  dsimp only
  generalize dropDigits .halfEven (width d.coefficient - precision) d.coefficient = c at most ⊢
  split
  · rfl
  · -- the digits have been rounded up to the next power of ten, whose last digit goes
    next long =>
    have least : tenTo precision ≤ c := by
      by_contra below
      exact long ((width_le_iff (by decide)).2 (not_le.1 below))
    have round : c = c / 10 * 10 := by
      rw [le_antisymm most least]
      decide
    rw [magnitude]
    dsimp only
    rw [zpow_add_one₀ (by norm_num), mul_comm _ (10 : ℚ), ← mul_assoc]
    congr 1
    exact_mod_cast round.symm

/-- **A multiple of fewer than `10 ^ 28` units keeps its value**, however many zeros end its
coefficient. -/
theorem shorten_of_units {d : Decimal} {m : ℕ} {f : ℤ} (hm : d.magnitude = m * 10 ^ f)
    (few : m < tenTo precision) : d.shorten.magnitude = d.magnitude := by
  by_cases short : width d.coefficient ≤ precision
  · rw [shorten_of_le short]
  rw [not_le] at short
  rcases le_total f d.exponent with fine | coarse
  · -- a finer unit would be counted by the long coefficient at least
    rw [eq_comm, magnitude, mul_zpow_inj fine] at hm
    have least : d.coefficient ≤ m := by
      rw [hm]
      exact Nat.le_mul_of_pos_right _ (tenTo_pos _)
    have digits := (width_le_iff (k := precision) (by decide)).2 (least.trans_lt few)
    exact absurd digits (not_le.2 short)
  · rw [magnitude, mul_zpow_inj coarse] at hm
    generalize (f - d.exponent).toNat = j at hm
    have digits : width d.coefficient ≤ precision + j := by
      refine (width_le_iff (Nat.lt_add_right _ (by decide))).2 ?_
      rw [hm, tenTo_add]
      exact Nat.mul_lt_mul_of_pos_right few (tenTo_pos j)
    have zeros : width d.coefficient - precision ≤ j := by omega
    have whole : d.coefficient =
        m * tenTo (j - (width d.coefficient - precision)) *
          tenTo (width d.coefficient - precision) := by
      rw [Nat.mul_assoc, ← tenTo_add, Nat.sub_add_cancel zeros]
      exact hm
    rw [shorten_magnitude short]
    generalize width d.coefficient - precision = k at whole
    rw [whole, dropDigits_mul_tenTo, mul_zpow_add, magnitude, whole]

theorem shorten_ne_zero {d : Decimal} (h : d.coefficient ≠ 0) : d.shorten.coefficient ≠ 0 := by
  by_cases short : width d.coefficient ≤ precision
  · rwa [shorten_of_le short]
  · rw [not_le] at short
    rw [← magnitude_eq_zero_iff.ne, shorten_magnitude short]
    refine mul_ne_zero (Nat.cast_ne_zero.2 ?_) (ten_zpow_pos _).ne'
    intro none
    obtain ⟨above, -⟩ := dropDigits_near (width d.coefficient - precision) d.coefficient
    have first : tenTo (width d.coefficient - precision) ≤ d.coefficient :=
      (tenTo_le_iff.2 (Nat.sub_le_sub_left (by decide) _)).trans (tenTo_le_of_width h)
    have pos := tenTo_pos (width d.coefficient - precision)
    rw [none] at above
    omega

/-- Rounding a coefficient does not look at the exponent. -/
theorem shorten_shift (d : Decimal) (n : ℤ) :
    shorten { d with exponent := d.exponent + n } =
      { d.shorten with exponent := d.shorten.exponent + n } := by
  unfold shorten
  dsimp only
  split
  · rfl
  · split
    · rw [Decimal.mk.injEq]
      exact ⟨rfl, rfl, add_right_comm _ _ _⟩
    · rw [Decimal.mk.injEq]
      refine ⟨rfl, rfl, ?_⟩
      dsimp only
      omega

theorem magnitude_shift (d : Decimal) (n : ℤ) :
    magnitude { d with exponent := d.exponent + n } = d.magnitude * 10 ^ n := by
  rw [magnitude, magnitude, zpow_add₀ (by norm_num), mul_assoc]

/-- A number in the middle of the range with few digits fits as it is. -/
theorem fit_of_short {d : Decimal} (h : d.coefficient ≠ 0) (short : width d.coefficient ≤ precision)
    (low : minExponent ≤ d.adjusted) (high : d.adjusted ≤ maxExponent) : d.fit = .ok d := by
  rw [fit, if_neg (mt isZero_iff.1 h), if_neg (not_lt.2 high), if_neg (by omega),
    shorten_of_le short]
  exact if_neg (not_lt.2 high)

/-- What fitting has done: it has rounded to the last digit that there can be, or
shortened the coefficient. -/
theorem fit_cases {d r : Decimal} (h : d.coefficient ≠ 0) (hr : d.fit = .ok r) :
    (d.adjusted < minExponent ∧ d.exponent < tiniestExponent ∧
      r = { d with
        coefficient := dropDigits .halfEven (tiniestExponent - d.exponent).toNat d.coefficient
        exponent := tiniestExponent }) ∨
      (¬(d.adjusted < minExponent ∧ d.exponent < tiniestExponent) ∧ r = d.shorten) := by
  rw [fit, if_neg (mt isZero_iff.1 h)] at hr
  split at hr
  · cases hr
  split at hr
  · next tiny =>
    cases hr
    exact .inl ⟨tiny.1, tiny.2, rfl⟩
  · next normal =>
    dsimp only at hr
    split at hr
    · cases hr
    · cases hr
      exact .inr ⟨normal, rfl⟩

/-- Fitting keeps a zero a zero. -/
theorem fit_zero {d : Decimal} (h : d.coefficient = 0) :
    ∃ e, d.fit = .ok { d with exponent := e } := by
  rw [fit, if_pos (isZero_iff.2 h)]
  exact ⟨_, rfl⟩

end SignedOrders.Decimal
