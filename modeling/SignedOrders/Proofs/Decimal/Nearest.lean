import SignedOrders.Proofs.Decimal.Reach

/-!
# Fitting is rounding to the nearest

Decimals of twenty-eight digits **express** some numbers and not others (`Expressible`).
Fitting gives a number that they express, and never passes one on its way: what is expressible
and not above a number is not above the fitted one either, and likewise from above
(`le_of_fit`, `of_fit_le`).  So an expressible number is kept, and any other one moves at most
up to its neighbours.

Beside that stand the two operations whose results depend on it: a normalized number is the
only one of its value without zeros at the end, and quantizing toward zero removes less than
one unit of the chosen place.
-/

namespace SignedOrders.Decimal

variable {d r u : Decimal} {e f : ℤ} {c k m n q : ℕ} {x : ℚ}

/-- A number with at most twenty-eight digits, none of them behind the tiniest place. -/
def Expressible (x : ℚ) : Prop :=
  ∃ (m : ℕ) (e : ℤ), x = m * 10 ^ e ∧ m < tenTo precision ∧ tiniestExponent ≤ e

/-! ## Removing digits is monotone -/

theorem le_dropDigits (h : q * tenTo k ≤ n) : q ≤ dropDigits .halfEven k n := by
  obtain ⟨near, -⟩ := dropDigits_near k n
  by_contra less
  have step := Nat.mul_le_mul_right (tenTo k) (Nat.succ_le_of_lt (not_le.1 less))
  rw [Nat.succ_mul] at step
  have pos := tenTo_pos k
  omega

theorem dropDigits_le_of_le (h : n ≤ q * tenTo k) : dropDigits .halfEven k n ≤ q := by
  obtain ⟨-, near⟩ := dropDigits_near k n
  by_contra more
  have step := Nat.mul_le_mul_right (tenTo k) (Nat.succ_le_of_lt (not_le.1 more))
  rw [Nat.succ_mul] at step
  have pos := tenTo_pos k
  omega

theorem dropDigits_zero (n : ℕ) : dropDigits .halfEven 0 n = n := by
  have kept := dropDigits_mul_tenTo 0 n
  rwa [tenTo_zero, Nat.mul_one] at kept

/-! ## What fitting does to a coefficient -/

/-- Fitting removes some digits: none, those behind the tiniest place, or those after the
twenty-eighth. -/
theorem exists_dropDigits_of_fit (nonzero : d.coefficient ≠ 0) (h : d.fit = .ok r) :
    ∃ k : ℕ, r.magnitude = dropDigits .halfEven k d.coefficient * 10 ^ (d.exponent + k) ∧
      (k = 0 ∨ d.exponent + k = tiniestExponent ∨ tenTo (27 + k) ≤ d.coefficient) := by
  rcases fit_cases nonzero h with ⟨-, tiny, rfl⟩ | ⟨-, rfl⟩
  · refine ⟨(tiniestExponent - d.exponent).toNat, ?_, .inr (.inl (by omega))⟩
    rw [magnitude]
    dsimp only
    congr 2
    omega
  · by_cases short : width d.coefficient ≤ precision
    · refine ⟨0, ?_, .inl rfl⟩
      rw [shorten_of_le short, dropDigits_zero, Nat.cast_zero, add_zero, magnitude]
    · rw [not_le] at short
      refine ⟨_, shorten_magnitude short, .inr (.inr ?_)⟩
      have places : 27 + (width d.coefficient - precision) = width d.coefficient - 1 := by
        have digits : precision = 28 := rfl
        omega
      rw [places]
      exact tenTo_le_of_width nonzero

/-- The range in which results of fitting lie. -/
theorem range_of_fit (h : d.fit = .ok r) :
    tiniestExponent ≤ r.exponent ∧ width r.coefficient ≤ precision ∧
      (r.coefficient ≠ 0 → r.adjusted ≤ maxExponent) := by
  have range : minExponent = -999999 ∧ maxExponent = 999999 ∧ tiniestExponent = -1000026 ∧
      precision = 28 := ⟨rfl, rfl, rfl, rfl⟩
  obtain ⟨short, -⟩ := reach_of_fit h
  by_cases zero : d.coefficient = 0
  · rw [fit, if_pos (isZero_iff.2 zero)] at h
    cases h
    exact ⟨le_max_left _ _, short, fun nonzero => absurd zero nonzero⟩
  have near : d.leading ≤ maxExponent := by
    by_contra far
    cases h.symm.trans (fit_eq_error_iff.2 ⟨rfl, zero, not_le.1 far⟩)
  rcases fit_cases zero h with ⟨-, -, rfl⟩ | ⟨normal, rfl⟩
  · refine ⟨le_rfl, short, fun _ => ?_⟩
    rw [adjusted]
    dsimp only at short ⊢
    omega
  · refine ⟨?_, short, fun _ => near⟩
    have first : d.adjusted = d.exponent + width d.coefficient - 1 := rfl
    obtain ⟨low, -⟩ := adjusted_le_leading d
    have leading : d.leading = d.shorten.exponent + width d.shorten.coefficient - 1 := rfl
    by_cases few : width d.coefficient ≤ precision
    · rw [shorten_of_le few]
      omega
    · omega

theorem expressible_of_short (short : width d.coefficient ≤ precision)
    (low : tiniestExponent ≤ d.exponent) : Expressible d.magnitude :=
  ⟨_, _, rfl, (width_le_iff (by decide)).1 short, low⟩

/-- The power of ten after the last number of twenty-eight digits is expressible as well. -/
theorem expressible_of_le (h : m ≤ tenTo precision) (low : tiniestExponent ≤ e) :
    Expressible (m * 10 ^ e) := by
  rcases h.eq_or_lt with rfl | few
  · refine ⟨1, e + precision, ?_, by decide, by omega⟩
    rw [mul_zpow_add, Nat.one_mul]
  · exact ⟨m, e, rfl, few, low⟩

/-- **Fitting gives an expressible number.** -/
theorem expressible_of_fit (h : d.fit = .ok r) : Expressible r.magnitude :=
  have ⟨low, short, _⟩ := range_of_fit h
  expressible_of_short short low

/-! ## Fitting passes no expressible number -/

/-- The multiples of the place of the last digit that is kept are not passed. -/
theorem multiple_le_dropDigits (h : (q : ℚ) * 10 ^ (f + k) ≤ c * 10 ^ f) :
    (q : ℚ) * 10 ^ (f + k) ≤ dropDigits .halfEven k c * 10 ^ (f + k) := by
  rw [mul_zpow_add, mul_le_mul_iff_left₀ (ten_zpow_pos f), Nat.cast_le] at h
  exact mul_le_mul_of_nonneg_right (Nat.cast_le.2 (le_dropDigits h)) (ten_zpow_pos _).le

theorem dropDigits_le_multiple (h : (c : ℚ) * 10 ^ f ≤ q * 10 ^ (f + k)) :
    dropDigits .halfEven k c * 10 ^ (f + k) ≤ (q : ℚ) * 10 ^ (f + k) := by
  rw [mul_zpow_add, mul_le_mul_iff_left₀ (ten_zpow_pos f), Nat.cast_le] at h
  exact mul_le_mul_of_nonneg_right (Nat.cast_le.2 (dropDigits_le_of_le h)) (ten_zpow_pos _).le

/-- An expressible number is a multiple of the place of the last digit that is kept, unless it
lies below all numbers with twenty-eight digits up to this place. -/
theorem Expressible.multiple_or_le (h : Expressible x) (f : ℤ) :
    (∃ q : ℕ, x = q * 10 ^ f) ∨ x ≤ (tenTo 27 : ℕ) * 10 ^ f := by
  obtain ⟨m, e, rfl, few, -⟩ := h
  rcases le_or_gt f e with coarse | fine
  · exact .inl ⟨_, mul_zpow_eq coarse m⟩
  · refine .inr ?_
    rw [mul_zpow_le_iff fine.le, ← tenTo_add]
    refine few.le.trans (tenTo_le_iff.2 ?_)
    have digits : precision = 28 := rfl
    omega

/-- What fitting leaves of a nonzero number, beside any expressible one: the number itself, or a
rounded coefficient at a place of which the expressible one is a multiple, or below whose
numbers of twenty-eight digits it lies. -/
theorem fit_cases_of_expressible (nonzero : d.coefficient ≠ 0) (h : d.fit = .ok r)
    (hx : Expressible x) : r.magnitude = d.magnitude ∨
      ∃ k : ℕ, r.magnitude = dropDigits .halfEven k d.coefficient * 10 ^ (d.exponent + k) ∧
        ((∃ q : ℕ, x = q * 10 ^ (d.exponent + k)) ∨
          x ≤ (tenTo 27 : ℕ) * 10 ^ (d.exponent + k) ∧
            (tenTo 27 : ℕ) * 10 ^ (d.exponent + k) ≤ d.magnitude) := by
  obtain ⟨k, hr, rfl | tiny | full⟩ := exists_dropDigits_of_fit nonzero h
  · rw [dropDigits_zero, Nat.cast_zero, add_zero] at hr
    exact .inl hr
  · obtain ⟨m, e, rfl, -, low⟩ := hx
    exact .inr ⟨k, hr, .inl ⟨_, mul_zpow_eq (tiny.trans_le low) m⟩⟩
  · refine .inr ⟨k, hr, (hx.multiple_or_le _).imp_right fun small => ⟨small, ?_⟩⟩
    rw [mul_zpow_add, ← tenTo_add, magnitude]
    exact mul_le_mul_of_nonneg_right (Nat.cast_le.2 full) (ten_zpow_pos _).le

theorem magnitude_of_fit_zero (zero : d.coefficient = 0) (h : d.fit = .ok r) :
    r.magnitude = d.magnitude := by
  obtain ⟨e, fitted⟩ := fit_zero zero
  cases fitted.symm.trans h
  rw [magnitude_eq_zero_iff.2 zero, magnitude_eq_zero_iff]
  exact zero

/-- **What is expressible and not above a number is not above the fitted one.** -/
theorem le_of_fit (h : d.fit = .ok r) (hx : Expressible x) (below : x ≤ d.magnitude) :
    x ≤ r.magnitude := by
  by_cases zero : d.coefficient = 0
  · rwa [magnitude_of_fit_zero zero h]
  obtain same | ⟨k, hr, ⟨q, rfl⟩ | ⟨small, full⟩⟩ := fit_cases_of_expressible zero h hx
  · rwa [same]
  · rw [hr]
    exact multiple_le_dropDigits below
  · rw [hr]
    exact small.trans (multiple_le_dropDigits full)

/-- **What is expressible and not below a number is not below the fitted one.** -/
theorem of_fit_le (h : d.fit = .ok r) (hx : Expressible x) (above : d.magnitude ≤ x) :
    r.magnitude ≤ x := by
  by_cases zero : d.coefficient = 0
  · rwa [magnitude_of_fit_zero zero h]
  obtain same | ⟨k, hr, ⟨q, rfl⟩ | ⟨small, full⟩⟩ := fit_cases_of_expressible zero h hx
  · rwa [same]
  · rw [hr]
    exact dropDigits_le_multiple above
  · rw [hr, le_antisymm small (full.trans above)]
    exact dropDigits_le_multiple (above.trans small)

/-- **An expressible number is kept.** -/
theorem magnitude_of_fit (h : d.fit = .ok r) (hd : Expressible d.magnitude) :
    r.magnitude = d.magnitude :=
  le_antisymm (of_fit_le h hd le_rfl) (le_of_fit h hd le_rfl)

/-- A number moves up by at most half a unit: of its twenty-eighth digit, or of the tiniest
place. -/
theorem fit_le_add (h : d.fit = .ok r) :
    r.magnitude ≤ d.magnitude + d.magnitude * (5 / 10 ^ 28) ∨
      r.magnitude ≤ d.magnitude + 10 ^ tiniestExponent / 2 := by
  have nonneg : 0 ≤ d.magnitude * (5 / 10 ^ 28) :=
    mul_nonneg d.magnitude_nonneg (by norm_num)
  by_cases zero : d.coefficient = 0
  · rw [magnitude_of_fit_zero zero h]
    exact .inl (le_add_of_nonneg_right nonneg)
  obtain ⟨k, hr, hk⟩ := exists_dropDigits_of_fit zero h
  have unit : (10 : ℚ) ^ (d.exponent + k) = tenTo k * 10 ^ d.exponent := by
    rw [cast_tenTo, add_comm, zpow_add₀ (by norm_num)]
  have near : r.magnitude ≤ d.magnitude + 10 ^ (d.exponent + k) / 2 := by
    obtain ⟨-, above⟩ := dropDigits_near k d.coefficient
    have half : (dropDigits .halfEven k d.coefficient * tenTo k : ℚ) ≤
        d.coefficient + tenTo k / 2 := by
      have above' : (2 : ℚ) * (dropDigits .halfEven k d.coefficient * tenTo k) ≤
          2 * d.coefficient + tenTo k := by exact_mod_cast above
      linarith only [above']
    have scaled := mul_le_mul_of_nonneg_right half (ten_zpow_pos d.exponent).le
    rw [hr, unit, magnitude]
    linarith only [scaled]
  rcases hk with rfl | tiny | full
  · rw [dropDigits_zero, Nat.cast_zero, add_zero] at hr
    rw [hr]
    exact .inl (le_add_of_nonneg_right nonneg)
  · rw [tiny] at near
    exact .inr near
  · -- a unit of the last digit is small beside twenty-seven digits before it
    have small : (tenTo k : ℚ) * 10 ^ 27 ≤ d.coefficient := by
      rw [Nat.add_comm, tenTo_add] at full
      exact_mod_cast full
    have scaled := mul_le_mul_of_nonneg_right small (ten_zpow_pos d.exponent).le
    rw [← magnitude, mul_right_comm, ← unit] at scaled
    refine .inl (near.trans ?_)
    linarith only [scaled]

/-! ## Normalizing -/

/-- A decimal without zeros at its end, as far as exponents reach. -/
structure Reduced (d : Decimal) : Prop where
  nonzero : d.coefficient ≠ 0
  high : d.exponent ≤ maxExponent
  last : d.exponent = maxExponent ∨ ¬10 ∣ d.coefficient

theorem not_dvd_trailingZeros (limit n : ℕ) :
    trailingZeros limit n = limit ∨ ¬10 ∣ n / tenTo (trailingZeros limit n) := by
  induction limit generalizing n with
  | zero => exact .inl rfl
  | succ limit ih =>
    rw [trailingZeros]
    split
    · rw [tenTo_succ, Nat.mul_comm, ← Nat.div_div_eq_div_mul, Nat.add_left_inj]
      exact ih (n / 10)
    · next last =>
      rw [tenTo_zero, Nat.div_one]
      exact .inr fun zero => last (Nat.mod_eq_zero_of_dvd zero)

theorem trailingZeros_le (limit n : ℕ) : trailingZeros limit n ≤ limit := by
  induction limit generalizing n with
  | zero => exact le_rfl
  | succ limit ih =>
    rw [trailingZeros]
    split
    · exact Nat.succ_le_succ (ih (n / 10))
    · exact Nat.zero_le _

/-- Of a number there is one reduced decimal. -/
theorem Reduced.unique (hd : Reduced d) (hu : Reduced u) (sign : d.negative = u.negative)
    (same : d.magnitude = u.magnitude) : d = u := by
  -- with a lower exponent the coefficient would end in zeros
  have coarse {d u : Decimal} (hd : Reduced d) (hu : Reduced u)
      (same : d.magnitude = u.magnitude) : u.exponent ≤ d.exponent := by
    by_contra lower
    rw [not_le] at lower
    rw [magnitude, magnitude, mul_zpow_inj lower.le] at same
    obtain ⟨j, hj⟩ : ∃ j, (u.exponent - d.exponent).toNat = j + 1 :=
      Nat.exists_eq_succ_of_ne_zero (by omega)
    rw [hj, tenTo_succ, ← Nat.mul_assoc] at same
    rcases hd.last with top | last
    · have := hu.high
      omega
    · exact last (Dvd.intro_left _ same.symm)
  have exponent := le_antisymm (coarse hu hd same.symm) (coarse hd hu same)
  rw [magnitude, magnitude, exponent, mul_left_inj' (ten_zpow_pos _).ne', Nat.cast_inj] at same
  cases d
  cases u
  exact Decimal.mk.injEq .. ▸ ⟨sign, same, exponent⟩

theorem fit_negative (h : d.fit = .ok r) : r.negative = d.negative := by
  by_cases zero : d.coefficient = 0
  · obtain ⟨e, fitted⟩ := fit_zero zero
    cases fitted.symm.trans h
    rfl
  · rcases fit_cases zero h with ⟨-, -, rfl⟩ | ⟨-, rfl⟩
    · rfl
    · exact shorten_negative d

/-- **What a normalized number is**: the fitted one, of which all zeros at the end have been
removed. -/
theorem normalize_eq_ok (h : d.normalize = .ok u) :
    ∃ r, d.fit = .ok r ∧ u.magnitude = r.magnitude ∧ u.negative = d.negative ∧
      tiniestExponent ≤ u.exponent ∧ width u.coefficient ≤ precision ∧
      (u.coefficient ≠ 0 → Reduced u) := by
  obtain ⟨r, hr, same⟩ := normalize_cases h
  obtain ⟨low, short, top⟩ := range_of_fit hr
  have sign := fit_negative hr
  refine ⟨r, hr, ?_⟩
  rw [normalize, hr] at h
  change (if r.isZero = true then _ else _) = _ at h
  split at h
  · next zero =>
    rw [isZero_iff] at zero
    cases h
    refine ⟨?_, sign, show tiniestExponent ≤ 0 by decide, short,
      fun nonzero => absurd zero nonzero⟩
    rw [magnitude_eq_zero_iff.2 zero, magnitude_eq_zero_iff]
    exact zero
  · next nonzero =>
    rw [isZero_iff] at nonzero
    have high : r.exponent ≤ maxExponent := by
      have first := top nonzero
      have digit := width_pos r.coefficient
      rw [adjusted] at first
      omega
    have few := trailingZeros_le (maxExponent - r.exponent).toNat r.coefficient
    have last := not_dvd_trailingZeros (maxExponent - r.exponent).toNat r.coefficient
    cases h
    obtain ⟨zero, -⟩ | ⟨-, same, left⟩ := same
    · exact absurd zero nonzero
    refine ⟨same.symm, sign, by dsimp only; omega, ?_, fun _ => ⟨left, ?_, ?_⟩⟩
    · rw [width_le_iff (by decide)] at short ⊢
      exact (Nat.div_le_self _ _).trans_lt short
    · dsimp only
      omega
    · exact last.imp_left fun all => by dsimp only; omega

/-- Fitted numbers lie below the power of ten after the greatest. -/
theorem magnitude_of_fit_lt (h : d.fit = .ok r) : r.magnitude < 10 ^ (maxExponent + 1) := by
  obtain ⟨-, -, top⟩ := range_of_fit h
  by_cases zero : r.coefficient = 0
  · rw [magnitude_eq_zero_iff.2 zero]
    exact ten_zpow_pos _
  · refine r.magnitude_lt_zpow.trans_le (zpow_le_zpow_right₀ (by norm_num) ?_)
    have first := top zero
    omega

/-- Rounding does not carry a digit to the front of an expressible number. -/
theorem Expressible.leading_eq (h : Expressible d.magnitude) (nonzero : d.coefficient ≠ 0) :
    d.leading = d.adjusted := by
  obtain ⟨m, e, hm, few, -⟩ := h
  exact (adjusted_eq_of_magnitude_eq nonzero (shorten_of_units hm few).symm).symm

/-- **An expressible number in range has a reduced form**, to which it is normalized. -/
theorem Expressible.normalize (h : Expressible d.magnitude) (nonzero : d.coefficient ≠ 0)
    (near : d.magnitude < 10 ^ (maxExponent + 1)) :
    ∃ u, d.normalize = .ok u ∧ Reduced u ∧ u.magnitude = d.magnitude ∧
      u.negative = d.negative := by
  cases normalized : d.normalize with
  | error signal =>
    obtain ⟨-, -, far⟩ := normalize_eq_error_iff.1 normalized
    have first := adjusted_lt nonzero near
    rw [h.leading_eq nonzero] at far
    omega
  | ok u =>
    obtain ⟨r, fitted, same, sign, -, -, reduced⟩ := normalize_eq_ok normalized
    have value := same.trans (magnitude_of_fit fitted h)
    refine ⟨u, rfl, reduced ?_, value, sign⟩
    rwa [← magnitude_eq_zero_iff.ne, value, magnitude_eq_zero_iff.ne]

/-! ## Quantizing toward zero -/

theorem dropDigits_down (k n : ℕ) : dropDigits .down k n = n / tenTo k := by
  unfold dropDigits
  split
  · next short =>
    exact (Nat.div_eq_of_lt ((lt_tenTo_width n).trans (tenTo_lt_iff.2 short))).symm
  · rfl

/-- A number without digits behind the chosen place keeps its value. -/
theorem magnitude_of_quantize_le {mode : Rounding} (h : d.quantize e mode = .ok r)
    (coarse : e ≤ d.exponent) : r.magnitude = d.magnitude := by
  obtain ⟨-, -, rfl, -, -, ⟨zero, none⟩ | ⟨-, -, hc⟩⟩ := quantize_cases h
  · rw [magnitude_eq_zero_iff.2 zero, magnitude_eq_zero_iff.2 none]
  · rw [if_pos (by omega)] at hc
    rw [magnitude, magnitude, hc, ← mul_zpow_eq coarse]

/-- **Cutting digits off removes less than one unit of the chosen place.** -/
theorem quantize_down (h : d.quantize e .down = .ok r) :
    r.magnitude ≤ d.magnitude ∧ d.magnitude < r.magnitude + 10 ^ e := by
  rcases le_or_gt e d.exponent with coarse | fine
  · rw [magnitude_of_quantize_le h coarse]
    exact ⟨le_rfl, lt_add_of_pos_right _ (ten_zpow_pos e)⟩
  obtain ⟨-, -, rfl, -, -, ⟨zero, none⟩ | ⟨-, -, hc⟩⟩ := quantize_cases h
  · rw [magnitude_eq_zero_iff.2 zero, magnitude_eq_zero_iff.2 none, zero_add]
    exact ⟨le_rfl, ten_zpow_pos _⟩
  · rw [if_neg (by omega)] at hc
    obtain ⟨k, place⟩ : ∃ k : ℕ, r.exponent = d.exponent + k :=
      ⟨(r.exponent - d.exponent).toNat, by omega⟩
    have whole := Nat.div_add_mod d.coefficient (tenTo k)
    have rest := Nat.mod_lt d.coefficient (tenTo_pos k)
    rw [Nat.mul_comm] at whole
    rw [place, sub_add_cancel_left, neg_neg, Int.toNat_natCast, dropDigits_down] at hc
    have counted (q : ℕ) : (q : ℚ) * 10 ^ r.exponent = (q * tenTo k : ℕ) * 10 ^ d.exponent := by
      rw [place, mul_zpow_add]
    have next : r.magnitude + 10 ^ r.exponent =
        ((r.coefficient + 1) * tenTo k : ℕ) * 10 ^ d.exponent := by
      rw [← counted, magnitude]
      push_cast
      ring
    rw [next, magnitude, magnitude, counted, mul_le_mul_iff_left₀ (ten_zpow_pos _),
      mul_lt_mul_iff_left₀ (ten_zpow_pos _), Nat.cast_le, Nat.cast_lt, hc, Nat.add_mul]
    omega

/-! ## Products -/

theorem value_times (a b : Decimal) : (a.times b).value = a.value * b.value := by
  have magnitude : (a.times b).magnitude = a.magnitude * b.magnitude := by
    simp only [magnitude, times, Nat.cast_mul, zpow_add₀ (by norm_num : (10 : ℚ) ≠ 0)]
    ring
  rw [value, value, value, magnitude]
  change (if (a.negative != b.negative) = true then _ else _) = _
  cases a.negative <;> cases b.negative <;> simp

end SignedOrders.Decimal
