import SignedOrders.Proofs.Decimal.Arithmetic

/-!
# How far decimals reach

Arithmetic has no result only for numbers that reach too far: to the left of the greatest
place, or over more than twenty-eight places when the last one is chosen.  What counts is the
place of the first digit after rounding (`leading`), since a digit that is carried to the
front can be the one too many.

Each operation fails exactly there, and with one signal (`fit_eq_error_iff`,
`normalize_eq_error_iff`, `scale_eq_error_iff`, `quantize_eq_error_iff`).
-/

namespace SignedOrders.Decimal

variable {d : Decimal} {e n : ℤ} {signal : Signal}

/-- The place of the first digit of the number kept to twenty-eight digits. -/
def leading (d : Decimal) : ℤ := d.shorten.adjusted

theorem leading_of_short (h : width d.coefficient ≤ precision) : d.leading = d.adjusted := by
  rw [leading, shorten_of_le h]

theorem leading_shift (d : Decimal) (n : ℤ) :
    leading { d with exponent := d.exponent + n } = d.leading + n := by
  rw [leading, shorten_shift, leading, adjusted, adjusted]
  dsimp only
  omega

/-- The digits that are left of a long coefficient. -/
def kept (d : Decimal) : ℕ :=
  dropDigits .halfEven (width d.coefficient - precision) d.coefficient

theorem width_eq {c k : ℕ} (low : tenTo k ≤ c) (high : c < tenTo (k + 1)) : width c = k + 1 := by
  refine le_antisymm ((width_le_iff k.succ_pos).2 high) ?_
  by_contra short
  rw [not_le, Nat.lt_succ_iff] at short
  have below := (lt_tenTo_width c).trans_le (tenTo_le_iff.2 short)
  exact absurd low (not_le.2 below)

/-- Of a long coefficient twenty-eight digits are kept, or the next power of ten. -/
theorem kept_bounds (h : precision < width d.coefficient) :
    tenTo 27 ≤ d.kept ∧ d.kept ≤ tenTo precision := by
  constructor
  · obtain ⟨near, -⟩ := dropDigits_near (width d.coefficient - precision) d.coefficient
    have nonzero : d.coefficient ≠ 0 := by
      intro zero
      rw [zero] at h
      exact absurd h (by decide)
    have least := tenTo_le_of_width nonzero
    have places : width d.coefficient - 1 = 27 + (width d.coefficient - precision) := by
      have digits : precision = 28 := rfl
      omega
    have pos := tenTo_pos (width d.coefficient - precision)
    rw [places, tenTo_add] at least
    by_contra less
    have step := Nat.mul_le_mul_right (tenTo (width d.coefficient - precision))
      (Nat.succ_le_of_lt (not_le.1 less))
    rw [Nat.succ_mul] at step
    change 2 * d.coefficient ≤ 2 * (d.kept * tenTo _) + tenTo _ at near
    omega
  · refine dropDigits_le ?_
    rw [Nat.add_sub_cancel' h.le]
    exact (lt_tenTo_width _).le

/-- **Rounding carries a digit to the front** of a long coefficient just when one digit too many
is left. -/
theorem leading_of_long (h : precision < width d.coefficient) :
    d.leading = if width d.kept ≤ precision then d.adjusted else d.adjusted + 1 := by
  obtain ⟨least, most⟩ := kept_bounds h
  have digits : precision = 28 := rfl
  rw [leading, shorten, if_neg (not_le.2 h)]
  change adjusted (if width d.kept ≤ precision then
    { d with coefficient := d.kept, exponent := _ } else
    { d with coefficient := d.kept / 10, exponent := _ }) = _
  split
  · next short =>
    have full := width_eq least ((width_le_iff (by decide)).1 short)
    rw [adjusted, adjusted]
    dsimp only
    omega
  · next carried =>
    have round : d.kept = tenTo precision := by
      refine le_antisymm most (not_lt.1 fun less => carried ?_)
      exact (width_le_iff (by decide)).2 less
    have full : width (d.kept / 10) = 28 := by
      rw [round]
      decide
    rw [adjusted, adjusted]
    dsimp only
    omega

theorem adjusted_le_leading (d : Decimal) :
    d.adjusted ≤ d.leading ∧ d.leading ≤ d.adjusted + 1 := by
  by_cases short : width d.coefficient ≤ precision
  · rw [leading_of_short short]
    omega
  · rw [leading_of_long (not_le.1 short)]
    split <;> omega

theorem width_shorten_le (d : Decimal) : width d.shorten.coefficient ≤ precision := by
  by_cases short : width d.coefficient ≤ precision
  · rwa [shorten_of_le short]
  · obtain ⟨-, most⟩ := kept_bounds (not_le.1 short)
    rw [shorten, if_neg short]
    change width (Decimal.coefficient (if width d.kept ≤ precision then
      { d with coefficient := d.kept, exponent := _ } else
      { d with coefficient := d.kept / 10, exponent := _ })) ≤ precision
    split
    · next kept => exact kept
    · refine (width_le_iff (by decide)).2 (lt_of_le_of_lt (Nat.div_le_div_right most) ?_)
      decide

/-! ## Operations that fit their results -/

/-- Removing digits by `mode` from a coefficient of `j + k` digits leaves `j` digits, or the next
power of ten. -/
theorem dropDigits_le_of_width (mode : Rounding) {c j k : ℕ} (h : width c ≤ j + k) :
    dropDigits mode k c ≤ tenTo j := by
  have below := (lt_tenTo_width c).trans_le (tenTo_le_iff.2 h)
  cases mode with
  | halfEven => exact dropDigits_le below.le
  | down =>
    unfold dropDigits
    split
    · exact Nat.zero_le _
    · rw [tenTo_add] at below
      exact (Nat.div_lt_of_lt_mul (by rwa [Nat.mul_comm] at below)).le

/-- **Fitting fails just for numbers beyond the greatest place.** -/
theorem fit_eq_error_iff :
    d.fit = .error signal ↔ signal = .overflow ∧ d.coefficient ≠ 0 ∧ maxExponent < d.leading := by
  have range : minExponent = -999999 ∧ maxExponent = 999999 := ⟨rfl, rfl⟩
  obtain ⟨low, high⟩ := adjusted_le_leading d
  by_cases zero : d.coefficient = 0
  · obtain ⟨e, fitted⟩ := fit_zero zero
    rw [fitted]
    simp [zero]
  rw [fit, if_neg (mt isZero_iff.1 zero)]
  -- beyond the range at once, below it, or beyond it after rounding
  split
  · next far =>
    rw [Except.error.injEq, eq_comm]
    exact ⟨fun h => ⟨h, zero, by omega⟩, And.left⟩
  split
  · next tiny =>
    refine iff_of_false (by rintro ⟨⟩) fun h => ?_
    omega
  · dsimp only
    change (if d.leading > maxExponent then _ else _) = _ ↔ _
    split
    · next far =>
      rw [Except.error.injEq, eq_comm]
      exact ⟨fun h => ⟨h, zero, far⟩, And.left⟩
    · next near => exact iff_of_false (by rintro ⟨⟩) fun h => near h.2.2

/-- **Fitting changes no place that matters**: the result has no more digits than are kept, and
its first digit is as far from any place that there is. -/
theorem reach_of_fit {r : Decimal} (h : d.fit = .ok r) :
    width r.coefficient ≤ precision ∧ ∀ e, tiniestExponent ≤ e →
      (r.coefficient ≠ 0 ∧ precision ≤ r.leading - e ↔
        d.coefficient ≠ 0 ∧ precision ≤ d.leading - e) := by
  have range : minExponent = -999999 ∧ tiniestExponent = -1000026 ∧ precision = 28 :=
    ⟨rfl, rfl, rfl⟩
  by_cases zero : d.coefficient = 0
  · obtain ⟨e, fitted⟩ := fit_zero zero
    cases fitted.symm.trans h
    dsimp only
    rw [zero]
    exact ⟨by decide, fun _ _ => by simp⟩
  rcases fit_cases zero h with ⟨small, tiny, rfl⟩ | ⟨-, rfl⟩
  · -- what is left has its first digit below the range as well
    have few : dropDigits .halfEven (tiniestExponent - d.exponent).toNat d.coefficient ≤
        tenTo 27 := by
      rw [adjusted] at small
      exact dropDigits_le_of_width .halfEven (by omega)
    have short := (width_le_iff (k := 28) (by decide)).2 (few.trans_lt (tenTo_lt_iff.2 (by decide)))
    obtain ⟨-, high⟩ := adjusted_le_leading d
    refine ⟨short, fun e he => iff_of_false (fun far => ?_) fun far => by omega⟩
    have first := far.2
    rw [leading_of_short short, adjusted] at first
    dsimp only at first
    omega
  · have short := width_shorten_le d
    refine ⟨short, fun e _ => ?_⟩
    rw [leading_of_short short]
    exact and_congr_left fun _ => iff_of_true (shorten_ne_zero zero) zero

theorem normalize_eq_error_iff :
    d.normalize = .error signal ↔
      signal = .overflow ∧ d.coefficient ≠ 0 ∧ maxExponent < d.leading := by
  rw [← fit_eq_error_iff, normalize]
  cases d.fit with
  | error e => exact Iff.rfl
  | ok r =>
    refine iff_of_false ?_ (by rintro ⟨⟩)
    change (if r.isZero = true then _ else _) ≠ _
    split <;> rintro ⟨⟩

/-- The normalized form of a large number has no places after the point. -/
theorem exponent_of_normalize {u : Decimal} (h : d.normalize = .ok u) (nonzero : d.coefficient ≠ 0)
    (large : precision ≤ d.leading) : 0 ≤ u.exponent := by
  have range : minExponent = -999999 ∧ precision = 28 := ⟨rfl, rfl⟩
  obtain ⟨-, high⟩ := adjusted_le_leading d
  unfold normalize at h
  cases fitted : d.fit with
  | error e =>
    rw [fitted] at h
    cases h
  | ok r =>
    rw [fitted] at h
    change (if r.isZero = true then _ else _) = _ at h
    rcases fit_cases nonzero fitted with ⟨small, -, -⟩ | ⟨-, rfl⟩
    · omega
    · rw [if_neg (mt isZero_iff.1 (shorten_ne_zero nonzero))] at h
      cases h
      have short := width_shorten_le d
      rw [leading, adjusted] at large
      dsimp only
      omega

theorem scale_eq_error_iff (h : n.natAbs ≤ maxScale) :
    d.scale n = .error signal ↔
      signal = .overflow ∧ d.coefficient ≠ 0 ∧ maxExponent < d.leading + n := by
  rw [scale_eq h, fit_eq_error_iff, leading_shift]

/-- The exact product. -/
def times (a b : Decimal) : Decimal :=
  ⟨a.negative != b.negative, a.coefficient * b.coefficient, a.exponent + b.exponent⟩

/-! ## Quantizing -/

theorem width_mul_tenTo_le {c k m : ℕ} (h : width c + k ≤ m) : width (c * tenTo k) ≤ m := by
  have pos := width_pos c
  rw [width_le_iff (by omega)]
  calc c * tenTo k < tenTo (width c) * tenTo k :=
        Nat.mul_lt_mul_of_pos_right (lt_tenTo_width c) (tenTo_pos k)
    _ = tenTo (width c + k) := (tenTo_add _ _).symm
    _ ≤ tenTo m := tenTo_le_iff.2 h

/-- The digits that are left at a chosen place. -/
def quantized (mode : Rounding) (e : ℤ) (d : Decimal) : ℕ :=
  if d.exponent - e ≥ 0 then d.coefficient * tenTo (d.exponent - e).toNat
  else dropDigits mode (-(d.exponent - e)).toNat d.coefficient

/-- Too many digits are left at a place just when a digit is carried to the front, after
twenty-eight. -/
theorem width_quantized_le_iff {mode : Rounding} (fits : d.adjusted - e < precision)
    (short : mode = .down → width d.coefficient ≤ precision) :
    width (d.quantized mode e) ≤ precision ↔ d.leading - e < precision := by
  have digits : precision = 28 := rfl
  obtain ⟨low, high⟩ := adjusted_le_leading d
  have first : d.adjusted = d.exponent + width d.coefficient - 1 := rfl
  rw [quantized]
  split
  · -- no digits are removed
    next coarse =>
    refine iff_of_true (width_mul_tenTo_le (by omega)) ?_
    rw [leading_of_short (by omega)]
    exact fits
  next fine =>
  by_cases full : d.adjusted - e = 27
  · by_cases long : precision < width d.coefficient
    · -- the place is that of the last digit that is kept
      have nearest : mode = .halfEven := by
        cases mode with
        | halfEven => rfl
        | down => exact absurd (short rfl) (not_le.2 long)
      have places : (-(d.exponent - e)).toNat = width d.coefficient - precision := by omega
      rw [nearest, places, leading_of_long long]
      change width d.kept ≤ precision ↔ _
      split
      · next kept => exact iff_of_true kept (by omega)
      · next carried => exact iff_of_false carried (by omega)
    · exact absurd fine (by omega)
  · refine iff_of_true ?_ (by omega)
    have few := dropDigits_le_of_width mode (j := 27) (k := (-(d.exponent - e)).toNat)
      (c := d.coefficient) (by omega)
    exact (width_le_iff (by decide)).2 (few.trans_lt (tenTo_lt_iff.2 (by decide)))

/-- **Quantizing at a place after the point fails just for numbers of more than twenty-eight
digits there.** -/
theorem quantize_eq_error_iff {mode : Rounding} (low : tiniestExponent ≤ e) (high : e ≤ 0)
    (short : mode = .down → width d.coefficient ≤ precision) :
    d.quantize e mode = .error signal ↔
      signal = .invalidOperation ∧ d.coefficient ≠ 0 ∧ precision ≤ d.leading - e := by
  have digits : precision = 28 := rfl
  have range : maxExponent = 999999 := rfl
  have first : d.adjusted = d.exponent + width d.coefficient - 1 := rfl
  obtain ⟨below, -⟩ := adjusted_le_leading d
  rw [quantize, if_neg (by omega)]
  by_cases zero : d.coefficient = 0
  · rw [if_pos (isZero_iff.2 zero)]
    simp [zero]
  rw [if_neg (mt isZero_iff.1 zero)]
  have failing (far : precision ≤ d.leading - e) :
      (.error .invalidOperation : Except Signal Decimal) = .error signal ↔
        signal = .invalidOperation ∧ d.coefficient ≠ 0 ∧ precision ≤ d.leading - e := by
    rw [Except.error.injEq, eq_comm]
    exact ⟨fun h => ⟨h, zero, far⟩, And.left⟩
  dsimp only
  split
  · next long => exact failing (by omega)
  next fits =>
  have iff : width (d.quantized mode e) ≤ precision ↔ d.leading - e < precision :=
    width_quantized_le_iff (by omega) short
  change (if width (d.quantized mode e) > precision ∨
    adjusted ⟨d.negative, d.quantized mode e, e⟩ > maxExponent then _ else _) = _ ↔ _
  by_cases few : width (d.quantized mode e) ≤ precision
  · have top : adjusted ⟨d.negative, d.quantized mode e, e⟩ ≤ maxExponent := by
      rw [adjusted]
      dsimp only
      omega
    rw [if_neg (not_or.2 ⟨not_lt.2 few, not_lt.2 top⟩)]
    exact iff_of_false (by rintro ⟨⟩) fun h => absurd (iff.1 few) (not_lt.2 h.2.2)
  · rw [if_pos (.inl (not_le.1 few))]
    exact failing (not_lt.1 (mt iff.2 few))

end SignedOrders.Decimal
