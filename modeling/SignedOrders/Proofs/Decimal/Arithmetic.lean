import SignedOrders.Proofs.Decimal.Rounding

/-!
# Arithmetic on decimals and their values

What `normalize`, `scale`, `exceeds`, `truncate` and `quantize` do to the magnitude of a
decimal.  `quantize` agrees with `fit` where both have a result: a number whose fitted
value has no digits beyond some place is quantized to this value there
(`quantize_of_shorten`).
-/

namespace SignedOrders.Decimal

/-! ## Zeros at the end -/

theorem tenTo_trailingZeros_dvd (limit n : ℕ) : tenTo (trailingZeros limit n) ∣ n := by
  induction limit generalizing n with
  | zero => exact one_dvd n
  | succ limit ih =>
    rw [trailingZeros]
    split
    · next h =>
      rw [tenTo_succ]
      have whole : n / 10 * 10 = n := Nat.div_mul_cancel (Nat.dvd_of_mod_eq_zero h)
      exact (Nat.mul_dvd_mul_right (ih (n / 10)) 10).trans (dvd_of_eq whole)
    · exact one_dvd n

theorem le_trailingZeros {limit j n : ℕ} (hj : j ≤ limit) (h : tenTo j ∣ n) :
    j ≤ trailingZeros limit n := by
  induction limit generalizing j n with
  | zero => exact hj
  | succ limit ih =>
    cases j with
    | zero => exact Nat.zero_le _
    | succ j =>
      rw [tenTo_succ] at h
      have ten : 10 ∣ n := (Dvd.intro_left _ rfl).trans h
      have rest : tenTo j ∣ n / 10 := Nat.dvd_div_of_mul_dvd (by rwa [Nat.mul_comm])
      rw [trailingZeros, if_pos (Nat.mod_eq_zero_of_dvd ten)]
      exact Nat.succ_le_succ (ih (Nat.le_of_succ_le_succ hj) rest)

/-! ## Normalizing -/

/-- What normalizing has done: it has fitted, and removed zeros. -/
theorem normalize_cases {d u : Decimal} (h : d.normalize = .ok u) :
    ∃ r, d.fit = .ok r ∧
      ((r.coefficient = 0 ∧ u.coefficient = 0 ∧ u.exponent = 0) ∨
        (r.coefficient ≠ 0 ∧ r.magnitude = u.magnitude ∧ u.coefficient ≠ 0)) := by
  unfold normalize at h
  cases hfit : d.fit with
  | error e =>
    rw [hfit] at h
    cases h
  | ok r =>
    rw [hfit] at h
    change (if r.isZero = true then _ else _) = _ at h
    refine ⟨r, rfl, ?_⟩
    split at h
    · next zero =>
      cases h
      exact .inl ⟨isZero_iff.1 zero, isZero_iff.1 zero, rfl⟩
    · next nonzero =>
      cases h
      have zeros := Nat.div_mul_cancel
        (tenTo_trailingZeros_dvd (maxExponent - r.exponent).toNat r.coefficient)
      generalize trailingZeros (maxExponent - r.exponent).toNat r.coefficient = z at zeros ⊢
      rw [isZero_iff] at nonzero
      refine .inr ⟨nonzero, ?_, ?_⟩
      · rw [magnitude, magnitude]
        dsimp only
        rw [eq_comm, mul_zpow_add, zeros]
      · intro none
        dsimp only at none
        rw [none, Nat.zero_mul] at zeros
        exact nonzero zeros.symm

/-- A number that fits and is a multiple of some power of ten keeps at least this power. -/
theorem normalize_of_fit {d : Decimal} (h : d.coefficient ≠ 0) (hfit : d.fit = .ok d) {m : ℕ}
    {f : ℤ} (hf : f ≤ maxExponent) (hm : d.magnitude = m * 10 ^ f) :
    ∃ u, d.normalize = .ok u ∧ f ≤ u.exponent := by
  have nonzero : ¬d.isZero = true := mt isZero_iff.1 h
  rw [normalize, hfit]
  refine ⟨_, if_neg nonzero, ?_⟩
  dsimp only
  rcases le_total f d.exponent with low | high
  · omega
  · rw [magnitude, mul_zpow_inj high] at hm
    have room : (f - d.exponent).toNat ≤ (maxExponent - d.exponent).toNat := by omega
    have zeros := le_trailingZeros room (Dvd.intro_left _ hm.symm)
    omega

theorem normalize_zero {d : Decimal} (h : d.coefficient = 0) :
    ∃ u, d.normalize = .ok u ∧ u.exponent = 0 := by
  obtain ⟨e, hfit⟩ := fit_zero h
  rw [normalize, hfit]
  exact ⟨_, if_pos (isZero_iff.2 h), rfl⟩

/-- A decimal is a multiple of every power of ten up to its exponent. -/
theorem exists_magnitude_eq {d : Decimal} {f : ℤ} (h : f ≤ d.exponent) :
    ∃ m : ℕ, d.magnitude = m * 10 ^ f := ⟨_, mul_zpow_eq h d.coefficient⟩

/-! ## Scaling and comparing -/

theorem scale_eq {d : Decimal} {n : ℤ} (h : n.natAbs ≤ maxScale) :
    d.scale n = fit { d with exponent := d.exponent + n } := by
  rw [scale, if_neg (not_lt.2 h)]

theorem isPositive_iff {d : Decimal} (h : d.isNegative = false) :
    d.isPositive = true ↔ d.coefficient ≠ 0 := by
  unfold isPositive isNegative isZero at *
  cases hn : d.negative <;> simp_all

theorem coefficient_eq_zero_of_negative {d : Decimal} (h : d.isNegative = false)
    (hn : d.negative = true) : d.coefficient = 0 := by
  simpa [isNegative, isZero, hn] using h

theorem isNegative_of_pos {d : Decimal} (h : d.negative = false) : d.isNegative = false := by
  rw [isNegative, h, Bool.false_and]

theorem isNegative_of_zero {d : Decimal} (h : d.coefficient = 0) : d.isNegative = false := by
  rw [isNegative, isZero_iff.2 h, Bool.not_true, Bool.and_false]

theorem negative_eq_false {d : Decimal} (h : d.isNegative = false) (hne : d.coefficient ≠ 0) :
    d.negative = false := by
  cases hn : d.negative with
  | false => rfl
  | true => exact absurd (coefficient_eq_zero_of_negative h hn) hne

theorem isPositive_iff_sign {d : Decimal} :
    d.isPositive = true ↔ d.negative = false ∧ d.coefficient ≠ 0 := by
  rw [isPositive, Bool.and_eq_true, Bool.not_eq_true', Bool.not_eq_true',
    ← Bool.not_eq_true d.isZero, isZero_iff]

theorem isPositive_iff_value_pos {d : Decimal} : d.isPositive = true ↔ 0 < d.value := by
  have nonneg := d.magnitude_nonneg
  rw [isPositive_iff_sign, ← magnitude_eq_zero_iff.ne, value]
  cases d.negative with
  | true => simpa using nonneg
  | false => simpa using nonneg.lt_iff_ne'.symm

theorem magnitude_of_nonneg {d : Decimal} (h : 0 ≤ d.exponent) :
    d.magnitude = (d.coefficient * tenTo d.exponent.toNat : ℕ) := by
  have whole := mul_zpow_eq h d.coefficient
  rw [sub_zero, zpow_zero, mul_one] at whole
  exact whole

theorem magnitude_le_nat_iff {d : Decimal} (h : d.exponent ≤ 0) {n : ℕ} :
    d.magnitude ≤ n ↔ d.coefficient ≤ n * tenTo (-d.exponent).toNat := by
  have compared := mul_zpow_le_iff h d.coefficient n
  rwa [zpow_zero, mul_one, zero_sub] at compared

theorem magnitude_lt_one {d : Decimal} (h : d.adjusted < 0) : d.magnitude < 1 := by
  calc d.magnitude < (10 : ℚ) ^ (d.adjusted + 1) := d.magnitude_lt_zpow
    _ ≤ (10 : ℚ) ^ (0 : ℤ) := zpow_le_zpow_right₀ (by norm_num) h
    _ = 1 := zpow_zero 10

/-- **Comparing by the first digit is comparing the values.** -/
theorem exceeds_iff {d : Decimal} (h : d.isNegative = false) {bound : ℕ} :
    d.exceeds bound = true ↔ (bound : ℚ) < d.magnitude := by
  rw [exceeds, Bool.and_eq_true, isPositive_iff h]
  by_cases zero : d.coefficient = 0
  · have none : d.magnitude = 0 := magnitude_eq_zero_iff.2 zero
    simp [zero, none]
  have pos : 0 < d.magnitude :=
    lt_of_le_of_ne d.magnitude_nonneg (Ne.symm (magnitude_eq_zero_iff.not.2 zero))
  rw [and_iff_right zero]
  -- above the bound by the first digit, below the point, or compared digit by digit
  split
  · next large =>
    refine iff_of_true rfl ?_
    calc (bound : ℚ) < (tenTo (width bound) : ℕ) := Nat.cast_lt.2 (lt_tenTo_width bound)
      _ = (10 : ℚ) ^ (width bound : ℤ) := cast_tenTo _
      _ ≤ (10 : ℚ) ^ d.adjusted := zpow_le_zpow_right₀ (by norm_num) large.le
      _ ≤ d.magnitude := zpow_adjusted_le zero
  split
  · next small =>
    rw [beq_iff_eq]
    constructor
    · rintro rfl
      exact_mod_cast pos
    · intro hlt
      exact_mod_cast Nat.lt_one_iff.1 (by exact_mod_cast hlt.trans (magnitude_lt_one small))
  split
  · next whole => rw [decide_eq_true_eq, gt_iff_lt, magnitude_of_nonneg whole, Nat.cast_lt]
  · next fraction =>
    rw [decide_eq_true_eq, gt_iff_lt, ← not_le, ← not_le,
      magnitude_le_nat_iff (le_of_not_ge fraction)]

theorem exceeds_of_zero {d : Decimal} (h : d.coefficient = 0) (bound : ℕ) :
    d.exceeds bound = false := by
  rw [← Bool.not_eq_true, exceeds_iff (isNegative_of_zero h), magnitude_eq_zero_iff.2 h, not_lt]
  exact Nat.cast_nonneg _

/-- A whole number is its own integral part. -/
theorem truncate_eq {d : Decimal} (h : d.isNegative = false) {n : ℕ} (hn : d.magnitude = n) :
    d.truncate = n := by
  have magnitude : (if d.exponent ≥ 0 then d.coefficient * tenTo d.exponent.toNat
      else if d.adjusted < 0 then 0
      else d.coefficient / tenTo (-d.exponent).toNat) = n := by
    split
    · next whole => exact_mod_cast (magnitude_of_nonneg whole).symm.trans hn
    split
    · next small =>
      have := hn.symm.trans_lt (magnitude_lt_one small)
      exact (Nat.lt_one_iff.1 (by exact_mod_cast this)).symm
    · next fraction _ =>
      have exact_multiple := (mul_zpow_inj (le_of_not_ge fraction) d.coefficient n).1
        (by rw [zpow_zero, mul_one]; exact hn)
      rw [exact_multiple, zero_sub]
      exact Nat.mul_div_cancel _ (tenTo_pos _)
  rw [truncate, magnitude]
  split
  · next negative =>
    have zero := coefficient_eq_zero_of_negative h negative
    rw [← magnitude_eq_zero_iff, hn, Nat.cast_eq_zero] at zero
    rw [zero]
    rfl
  · rfl

/-! ## Quantizing -/

/-- What quantizing has done. -/
theorem quantize_cases {d r : Decimal} {e : ℤ} {mode : Rounding} (h : d.quantize e mode = .ok r) :
    tiniestExponent ≤ e ∧ e ≤ maxExponent ∧ r.exponent = e ∧ r.negative = d.negative ∧
      width r.coefficient ≤ precision ∧
      ((d.coefficient = 0 ∧ r.coefficient = 0) ∨
        (d.coefficient ≠ 0 ∧ (width d.coefficient : ℤ) + (d.exponent - e) ≤ precision ∧
          r.coefficient = if d.exponent - e ≥ 0 then d.coefficient * tenTo (d.exponent - e).toNat
            else dropDigits mode (-(d.exponent - e)).toNat d.coefficient)) := by
  unfold quantize at h
  split at h
  · cases h
  next range =>
  split at h
  · next zero =>
    cases h
    rw [isZero_iff] at zero
    exact ⟨by omega, by omega, rfl, rfl, by rw [zero]; decide, .inl ⟨zero, zero⟩⟩
  next nonzero =>
  dsimp only at h
  split at h
  · cases h
  next fits =>
  generalize hc : (if d.exponent - e ≥ 0 then d.coefficient * tenTo (d.exponent - e).toNat
    else dropDigits mode (-(d.exponent - e)).toNat d.coefficient) = c at h ⊢
  split at h
  · cases h
  next short =>
  cases h
  rw [isZero_iff] at nonzero
  exact ⟨by omega, by omega, rfl, rfl, not_lt.1 (mt .inl short), .inr ⟨nonzero, by omega, rfl⟩⟩

/-- **Quantizing agrees with shortening.**  Where the shortened value has no digits beyond
the chosen place, the quantized one is the same. -/
theorem quantize_magnitude {d r : Decimal} {e : ℤ} (hr : d.quantize e .halfEven = .ok r) {j : ℕ}
    (hj : d.shorten.magnitude = j * 10 ^ e) : r.coefficient = j := by
  rcases quantize_cases hr with ⟨-, -, -, -, -, ⟨zero, none⟩ | ⟨nonzero, fits, hc⟩⟩
  · rw [shorten_of_le (by rw [zero]; decide), magnitude, zero, Nat.cast_zero, zero_mul, eq_comm,
      mul_eq_zero, Nat.cast_eq_zero] at hj
    rw [none, hj.resolve_right (ten_zpow_pos e).ne']
  rw [hc]
  by_cases short : width d.coefficient ≤ precision
  · rw [shorten_of_le short, magnitude] at hj
    split
    · next coarse => rwa [eq_comm, mul_zpow_inj (by omega), eq_comm] at hj
    · next fine =>
      rw [mul_zpow_inj (by omega)] at hj
      rw [hj, neg_sub]
      exact dropDigits_mul_tenTo _ _
  · -- the place is at least that of the last digit that is kept
    rw [not_le] at short
    rw [shorten_magnitude short, mul_zpow_inj (by omega)] at hj
    rw [if_neg (by omega)]
    refine dropDigits_of_dropDigits (j := width d.coefficient - precision) (by omega) ?_
    rw [hj]
    congr 2
    omega

/-- A number that is a multiple of the chosen place is quantized to itself. -/
theorem quantize_of_magnitude {d r : Decimal} (low : tiniestExponent ≤ r.exponent)
    (high : r.exponent ≤ maxExponent) (sign : d.negative = r.negative)
    (same : d.magnitude = r.magnitude) (short : width r.coefficient ≤ precision)
    (top : r.coefficient ≠ 0 → r.adjusted ≤ maxExponent) :
    d.quantize r.exponent .halfEven = .ok r := by
  rw [quantize, if_neg (by omega)]
  by_cases zero : d.coefficient = 0
  · have none : r.coefficient = 0 := by
      rwa [← magnitude_eq_zero_iff, ← same, magnitude_eq_zero_iff]
    rw [if_pos (isZero_iff.2 zero), zero, sign, ← none]
  · have nonzero : r.coefficient ≠ 0 := by
      rwa [← magnitude_eq_zero_iff.ne, ← same, magnitude_eq_zero_iff.ne]
    have first := adjusted_eq_of_magnitude_eq zero same
    have coefficient : (if d.exponent - r.exponent ≥ 0 then
        d.coefficient * tenTo (d.exponent - r.exponent).toNat
        else dropDigits .halfEven (-(d.exponent - r.exponent)).toNat d.coefficient) =
          r.coefficient := by
      rw [magnitude, magnitude] at same
      split
      · rwa [eq_comm, mul_zpow_inj (by omega), eq_comm] at same
      · rw [mul_zpow_inj (by omega)] at same
        rw [same, neg_sub]
        exact dropDigits_mul_tenTo _ _
    rw [if_neg (mt isZero_iff.1 zero)]
    dsimp only
    rw [adjusted, adjusted] at first
    rw [if_neg (by omega), coefficient, sign]
    have top := top nonzero
    exact if_neg (not_or.2 ⟨not_lt.2 short, not_lt.2 top⟩)

end SignedOrders.Decimal
