import SignedOrders.Amount
import SignedOrders.Proofs.Decimal.Arithmetic
import SignedOrders.Proofs.Decimal.Literal
import SignedOrders.Proofs.Failure

/-!
# Amounts are exact

A side of a market checks rounded copies of a quantity, keeps another one, and amounts are
encoded and written separately.  All of them agree: the quantity that a side keeps is the one
that its checks have seen (`Side.magnitude_of_quantize`), a whole number of hundred-millionths
that fits in 64 bits (`Side.Carries`), it is encoded as just this number, and its text is a
literal that denotes it and is taken for the same amount again.
-/

namespace SignedOrders

open Decimal

namespace Side

variable {side : Side} {given : Given}

/-- The checks of a quantity, in one statement. -/
theorem quantity_eq_ok_iff {r : Decimal} :
    side.quantity given = .ok r ↔
      ∃ v u s e, given.figure? = some (.number v) ∧ v.isNegative = false ∧
        v.normalize = .ok u ∧ -u.exponent ≤ side.precision ∧ -u.exponent ≤ encodingPlaces ∧
        v.scale encodingPlaces = .ok s ∧ s.exceeds maxEncoded = false ∧
        side.lastPlace = .ok e ∧ v.quantize e .halfEven = .ok r := by
  constructor
  · intro h
    obtain ⟨figure, hfigure, h⟩ := bind_eq_ok.1 h
    rw [orFail_eq_ok] at hfigure
    cases figure with
    | infinite => cases h
    | nan => cases h
    | number v =>
      dsimp only at h
      split at h
      · cases h
      next unsigned =>
      obtain ⟨u, hu, h⟩ := bind_eq_ok.1 h
      split at h
      · cases h
      next fine =>
      split at h
      · cases h
      next encodable =>
      obtain ⟨s, hs, h⟩ := bind_eq_ok.1 h
      split at h
      · cases h
      next fits =>
      obtain ⟨e, he, h⟩ := bind_eq_ok.1 h
      rw [ofArithmetic_eq_ok] at hu hs h
      exact ⟨v, u, s, e, hfigure, by simpa using unsigned, hu, by omega, by omega, hs,
        by simpa using fits, he, h⟩
  · rintro ⟨v, u, s, e, hfigure, unsigned, hu, fine, encodable, hs, fits, he, h⟩
    refine bind_eq_ok.2 ⟨_, orFail_eq_ok.2 hfigure, ?_⟩
    dsimp only
    rw [unsigned, if_neg Bool.false_ne_true]
    refine bind_eq_ok.2 ⟨u, ofArithmetic_eq_ok.2 hu, ?_⟩
    rw [if_neg (by omega), if_neg (by omega)]
    refine bind_eq_ok.2 ⟨s, ofArithmetic_eq_ok.2 hs, ?_⟩
    rw [fits, if_neg Bool.false_ne_true]
    exact bind_eq_ok.2 ⟨e, he, ofArithmetic_eq_ok.2 h⟩

/-- The last place of a side, which is that of its precision as far as decimals have places. -/
def place (side : Side) : ℤ := max (-side.precision) tiniestExponent

theorem lastPlace_eq_place {e : ℤ} (h : side.lastPlace = .ok e) : e = side.place := by
  obtain ⟨r, hr, rfl⟩ := map_eq_ok.1 h
  rw [ofArithmetic_eq_ok] at hr
  unfold scale at hr
  split at hr
  · cases hr
  have one : (⟨(ofInt 1).negative, (ofInt 1).coefficient, (ofInt 1).exponent + -side.precision⟩ :
      Decimal) = ⟨false, 1, -side.precision⟩ := congrArg _ (zero_add _)
  have first : adjusted ⟨false, 1, -side.precision⟩ = -side.precision := by
    have digit : width 1 = 1 := by decide
    rw [adjusted, digit]
    exact add_sub_cancel_right _ _
  have range : minExponent = -999999 ∧ tiniestExponent = -1000026 := ⟨rfl, rfl⟩
  rw [one] at hr
  rcases fit_cases one_ne_zero hr with ⟨-, tiny, rfl⟩ | ⟨normal, rfl⟩
  · exact (max_eq_right tiny.le).symm
  · rw [first] at normal
    rw [shorten_of_le (show width 1 ≤ Decimal.precision by decide)]
    have near : tiniestExponent ≤ -side.precision := by
      dsimp only at normal
      omega
    exact (max_eq_left near).symm

/-- The finest power of ten whose multiples a side can carry. -/
def unitPlace (side : Side) : ℤ := -min side.precision encodingPlaces

theorem lastPlace_le_unitPlace {e : ℤ} (h : side.lastPlace = .ok e) : e ≤ side.unitPlace := by
  have tiniest : tiniestExponent ≤ -encodingPlaces := by decide
  rw [unitPlace, lastPlace_eq_place h, place]
  omega

/-- What a side can carry: a number that is written with the places of the side, has
no digits beyond those or those of the encoding, and fits into the encoding. -/
structure Carries (side : Side) (r : Decimal) : Prop where
  place : side.lastPlace = .ok r.exponent
  low : tiniestExponent ≤ r.exponent
  high : r.exponent ≤ maxExponent
  unsigned : r.isNegative = false
  short : width r.coefficient ≤ Decimal.precision
  zero : r.coefficient = 0 → 0 ≤ side.precision
  multiple : ∃ m : ℕ, r.magnitude = m * 10 ^ side.unitPlace
  bound : r.magnitude * 10 ^ (encodingPlaces : ℤ) ≤ maxEncoded

theorem Carries.of_zero {r : Decimal} (place : side.lastPlace = .ok r.exponent)
    (low : tiniestExponent ≤ r.exponent) (high : r.exponent ≤ maxExponent)
    (none : r.coefficient = 0) (places : 0 ≤ side.precision) : side.Carries r := by
  have magnitude : r.magnitude = 0 := magnitude_eq_zero_iff.2 none
  refine ⟨place, low, high, isNegative_of_zero none, ?_, fun _ => places, ⟨0, ?_⟩, ?_⟩
  · rw [none]
    decide
  · rw [magnitude, Nat.cast_zero, zero_mul]
  · rw [magnitude, zero_mul]
    exact Nat.cast_nonneg _

/-- A number that is rounded at the very last place that decimals have is far below the
encoding. -/
theorem not_tiny {v u : Decimal} (small : v.adjusted < minExponent)
    (tiny : v.exponent < tiniestExponent) (nonzero : u.coefficient ≠ 0)
    (unit : -encodingPlaces ≤ u.exponent) :
    magnitude { v with
      coefficient := dropDigits .halfEven (tiniestExponent - v.exponent).toNat v.coefficient
      exponent := tiniestExponent } ≠ u.magnitude := by
  intro same
  have low : (-8 : ℤ) ≤ adjusted { v with
      coefficient := dropDigits .halfEven (tiniestExponent - v.exponent).toNat v.coefficient
      exponent := tiniestExponent } := by
    refine le_adjusted (same ▸ le_trans ?_ (zpow_adjusted_le nonzero))
    have pos := width_pos u.coefficient
    have places : -((encodingPlaces : ℕ) : ℤ) = -8 := rfl
    refine zpow_le_zpow_right₀ (by norm_num) ?_
    rw [adjusted]
    omega
  have few : dropDigits .halfEven (tiniestExponent - v.exponent).toNat v.coefficient ≤
      tenTo 28 := by
    refine dropDigits_le ((lt_tenTo_width _).le.trans (tenTo_le_iff.2 ?_))
    have bounds : tiniestExponent = minExponent - 28 + 1 := rfl
    rw [adjusted] at small
    omega
  have digits := (width_le_iff (k := 29) (by decide)).2
    (few.trans_lt (tenTo_lt_iff.2 (by decide)))
  have place : tiniestExponent = -1000026 := rfl
  rw [adjusted] at low
  dsimp only at low
  omega

/-- Scaling to the encoding multiplies a number that is not tiny. -/
theorem scaled_of_normal {v s : Decimal} (unsigned : v.isNegative = false)
    (nonzero : v.coefficient ≠ 0)
    (normal : ¬(v.adjusted < minExponent ∧ v.exponent < tiniestExponent))
    (hs : v.scale encodingPlaces = .ok s) :
    s.isNegative = false ∧ s.magnitude = v.shorten.magnitude * 10 ^ (encodingPlaces : ℤ) := by
  rw [scale_eq (by decide)] at hs
  rcases fit_cases (d := { v with exponent := v.exponent + encodingPlaces }) nonzero hs with
    ⟨small, tiny, -⟩ | ⟨-, rfl⟩
  · -- the scaled number is larger, so it cannot be tiny if the number is not
    refine absurd ⟨?_, ?_⟩ normal
    · rw [adjusted] at small ⊢
      dsimp only at small
      omega
    · dsimp only at tiny
      omega
  · rw [shorten_shift, magnitude_shift]
    exact ⟨isNegative_of_pos ((shorten_negative v).trans (negative_eq_false unsigned nonzero)), rfl⟩

/-- A normalized quantity that is not zero is the number with at most twenty-eight digits. -/
theorem shorten_of_normalize {v u : Decimal} (hu : v.normalize = .ok u)
    (nonzero : u.coefficient ≠ 0) (unit : -encodingPlaces ≤ u.exponent) :
    v.coefficient ≠ 0 ∧ ¬(v.adjusted < minExponent ∧ v.exponent < tiniestExponent) ∧
      v.shorten.magnitude = u.magnitude := by
  obtain ⟨y, hy, ⟨-, none, -⟩ | ⟨kept, same, -⟩⟩ := normalize_cases hu
  · exact absurd none nonzero
  have given : v.coefficient ≠ 0 := by
    intro zero
    obtain ⟨e, fitted⟩ := fit_zero zero
    cases fitted.symm.trans hy
    exact kept zero
  rcases fit_cases given hy with ⟨small, tiny, rfl⟩ | ⟨normal, rfl⟩
  · exact absurd same (not_tiny small tiny nonzero unit)
  · exact ⟨given, normal, same⟩

/-- **A side keeps the number that its checks have seen**: writing a quantity at the last place
and normalizing it give one value. -/
theorem magnitude_of_quantize {v u r : Decimal} {e : ℤ} (hu : v.normalize = .ok u)
    (unit : side.unitPlace ≤ u.exponent) (last : side.lastPlace = .ok e)
    (hr : v.quantize e .halfEven = .ok r) : r.magnitude = u.magnitude := by
  obtain ⟨-, -, rfl, -, -, hcases⟩ := quantize_cases hr
  by_cases none : u.coefficient = 0
  · rw [magnitude_eq_zero_iff.2 none, magnitude_eq_zero_iff]
    rcases hcases with ⟨-, zero⟩ | ⟨nonzero, -, hc⟩
    · exact zero
    obtain ⟨y, hy, ⟨vanished, -⟩ | ⟨-, -, left⟩⟩ := normalize_cases hu
    · rcases fit_cases nonzero hy with ⟨small, tiny, rfl⟩ | ⟨-, rfl⟩
      · -- what vanishes at the last place that decimals have vanishes at the side's as well
        have low := lastPlace_le_unitPlace last
        have coarse : tiniestExponent ≤ r.exponent := by
          rw [lastPlace_eq_place last]
          exact le_max_right _ _
        rw [hc, if_neg (by omega)]
        refine dropDigits_of_dropDigits (j := (tiniestExponent - v.exponent).toNat) (by omega) ?_
        rw [Nat.zero_mul]
        exact vanished
      · exact absurd vanished (shorten_ne_zero nonzero)
    · exact absurd none left
  · have encodable : -encodingPlaces ≤ u.exponent := by
      rw [unitPlace] at unit
      omega
    obtain ⟨-, -, same⟩ := shorten_of_normalize hu none encodable
    obtain ⟨j, hj⟩ := exists_magnitude_eq ((lastPlace_le_unitPlace last).trans unit)
    rw [hj, magnitude, quantize_magnitude hr (same.trans hj)]

/-- **A side carries what it has accepted.** -/
theorem carries_of_quantity {r : Decimal} (h : side.quantity given = .ok r) :
    side.Carries r := by
  obtain ⟨v, u, s, e, -, unsigned, hu, fine, encodable, hs, fits, last, hr⟩ :=
    quantity_eq_ok_iff.1 h
  have unit : side.unitPlace ≤ u.exponent := by
    rw [unitPlace]
    omega
  have value := magnitude_of_quantize hu unit last hr
  obtain ⟨low, high, rfl, sign, short, -⟩ := quantize_cases hr
  by_cases none : u.coefficient = 0
  · -- a zero has no places, so that the side may have none either
    obtain ⟨-, -, ⟨-, -, whole⟩ | ⟨-, -, left⟩⟩ := normalize_cases hu
    · rw [magnitude_eq_zero_iff.2 none, magnitude_eq_zero_iff] at value
      exact .of_zero last low high value (by omega)
    · exact absurd none left
  · obtain ⟨nonzero, normal, same⟩ := shorten_of_normalize hu none (by omega)
    have scaled := scaled_of_normal unsigned nonzero normal hs
    rw [same, ← value] at scaled
    refine ⟨last, low, high, isNegative_of_pos (sign.trans (negative_eq_false unsigned nonzero)),
      short, fun zero => ?_, ?_, ?_⟩
    · rw [← magnitude_eq_zero_iff, value, magnitude_eq_zero_iff] at zero
      exact absurd zero none
    · obtain ⟨m, hm⟩ := exists_magnitude_eq unit
      exact ⟨m, value.trans hm⟩
    · rw [← scaled.2, ← not_lt, ← exceeds_iff scaled.1, fits]
      exact Bool.false_ne_true

/-! ## Numbers that a side can represent -/

/-- A side can represent a number that is not negative, has no digits beyond the places of the
side or those of the encoding, and fits into the encoding. -/
structure Represents (side : Side) (x : ℚ) : Prop where
  nonneg : 0 ≤ x
  whole : ∃ m : ℤ, x * 10 ^ min side.precision encodingPlaces = m
  bound : x * 10 ^ (encodingPlaces : ℤ) ≤ maxEncoded

/-- What fits into the encoding has at most twelve digits before the point. -/
theorem lt_of_encodable {x : ℚ} (h : x * 10 ^ (encodingPlaces : ℤ) ≤ maxEncoded) :
    x < 10 ^ (12 : ℤ) := by
  have most : (maxEncoded : ℚ) < 10 ^ (12 : ℤ) * 10 ^ (encodingPlaces : ℤ) := by
    norm_num [maxEncoded, encodingPlaces]
  exact lt_of_mul_lt_mul_right (h.trans_lt most) (ten_zpow_pos _).le

namespace Represents

variable {v : Decimal} {x : ℚ}

theorem exists_units (h : side.Represents x) :
    ∃ m : ℕ, x = m * 10 ^ side.unitPlace ∧ m ≤ maxEncoded := by
  obtain ⟨m, hm⟩ := h.whole
  have unsigned : 0 ≤ m := by
    have nonneg := mul_nonneg h.nonneg (ten_zpow_pos (min side.precision encodingPlaces)).le
    rw [hm] at nonneg
    exact_mod_cast nonneg
  lift m to ℕ using unsigned
  rw [Int.cast_natCast] at hm
  refine ⟨m, ?_, ?_⟩
  · rw [← hm, unitPlace, zpow_neg, mul_inv_cancel_right₀ (ten_zpow_pos _).ne']
  · have fewer : (10 : ℚ) ^ min side.precision encodingPlaces ≤ 10 ^ (encodingPlaces : ℤ) :=
      zpow_le_zpow_right₀ (by norm_num) (min_le_right _ _)
    have bound := (mul_le_mul_of_nonneg_left fewer h.nonneg).trans h.bound
    rw [hm] at bound
    exact_mod_cast bound

/-- A number that can be represented is of moderate size. -/
theorem adjusted_bounds (h : side.Represents v.magnitude) (nonzero : v.coefficient ≠ 0) :
    -8 ≤ v.adjusted ∧ v.adjusted < 12 ∧ side.unitPlace ≤ v.adjusted := by
  obtain ⟨m, hm, -⟩ := h.exists_units
  have unit : side.unitPlace ≤ v.adjusted := by
    refine le_adjusted ?_
    rw [hm]
    refine le_mul_of_one_le_left (ten_zpow_pos _).le ?_
    have pos : m ≠ 0 := by
      rintro rfl
      rw [Nat.cast_zero, zero_mul, magnitude_eq_zero_iff] at hm
      exact nonzero hm
    exact_mod_cast Nat.pos_of_ne_zero pos
  have places : ((encodingPlaces : ℕ) : ℤ) = 8 := rfl
  refine ⟨?_, adjusted_lt nonzero ?_, unit⟩
  · rw [unitPlace] at unit
    omega
  · exact lt_of_encodable h.bound

end Represents

namespace Carries

variable {r v : Decimal}

theorem represents (h : side.Carries r) : side.Represents r.magnitude where
  nonneg := r.magnitude_nonneg
  whole := by
    obtain ⟨m, hm⟩ := h.multiple
    refine ⟨m, ?_⟩
    rw [hm, unitPlace, zpow_neg, inv_mul_cancel_right₀ (ten_zpow_pos _).ne']
    exact (Int.cast_natCast m).symm
  bound := h.bound

/-- What a side carries is of moderate size. -/
theorem adjusted_bounds (h : side.Carries r) (nonzero : v.coefficient ≠ 0)
    (same : v.magnitude = r.magnitude) :
    -8 ≤ v.adjusted ∧ v.adjusted < 12 ∧ side.unitPlace ≤ v.adjusted :=
  Represents.adjusted_bounds (same ▸ h.represents) nonzero

theorem coefficient_eq_zero_iff (same : v.magnitude = r.magnitude) :
    v.coefficient = 0 ↔ r.coefficient = 0 := by
  rw [← magnitude_eq_zero_iff, same, magnitude_eq_zero_iff]

theorem fit_eq (h : side.Carries r) (nonzero : v.coefficient ≠ 0)
    (same : v.magnitude = r.magnitude) (short : width v.coefficient ≤ Decimal.precision) :
    v.fit = .ok v := by
  obtain ⟨low, high, -⟩ := h.adjusted_bounds nonzero same
  have range : minExponent = -999999 ∧ maxExponent = 999999 := ⟨rfl, rfl⟩
  exact fit_of_short nonzero short (by omega) (by omega)

/-- Scaling to the encoding is exact. -/
theorem scale_eq (h : side.Carries r) (unsigned : v.isNegative = false)
    (same : v.magnitude = r.magnitude) (short : width v.coefficient ≤ Decimal.precision) :
    ∃ s, v.scale encodingPlaces = .ok s ∧ s.isNegative = false ∧
      s.magnitude = r.magnitude * 10 ^ (encodingPlaces : ℤ) := by
  rw [Decimal.scale_eq (by decide)]
  by_cases zero : v.coefficient = 0
  · obtain ⟨e, he⟩ := fit_zero (d := { v with exponent := v.exponent + encodingPlaces }) zero
    refine ⟨_, he, isNegative_of_zero zero, ?_⟩
    rw [magnitude_eq_zero_iff.2 ((coefficient_eq_zero_iff same).1 zero), zero_mul]
    exact magnitude_eq_zero_iff.2 zero
  · obtain ⟨low, high, -⟩ := h.adjusted_bounds zero same
    have range : minExponent = -999999 ∧ maxExponent = 999999 := ⟨rfl, rfl⟩
    have places : ((encodingPlaces : ℕ) : ℤ) = 8 := rfl
    refine ⟨_, fit_of_short (d := { v with exponent := v.exponent + encodingPlaces }) zero short
      ?_ ?_, unsigned, ?_⟩
    · rw [adjusted] at low ⊢
      dsimp only
      omega
    · rw [adjusted] at high ⊢
      dsimp only
      omega
    · rw [magnitude_shift, same]

/-- **A side accepts what it carries**, in whatever form it is given. -/
theorem quantity_eq (h : side.Carries r) (hv : given.figure? = some (.number v))
    (sign : v.negative = r.negative) (same : v.magnitude = r.magnitude)
    (short : width v.coefficient ≤ Decimal.precision) : side.quantity given = .ok r := by
  have unsigned : v.isNegative = false := by
    by_cases zero : v.coefficient = 0
    · exact isNegative_of_zero zero
    · exact isNegative_of_pos (sign.trans
        (negative_eq_false h.unsigned (mt (coefficient_eq_zero_iff same).2 zero)))
  obtain ⟨s, hs, positive, scaled⟩ := h.scale_eq unsigned same short
  have fits : s.exceeds maxEncoded = false := by
    rw [← Bool.not_eq_true, exceeds_iff positive, scaled, not_lt]
    exact h.bound
  have quantized : v.quantize r.exponent .halfEven = .ok r := by
    refine quantize_of_magnitude h.low h.high sign same h.short fun nonzero => ?_
    obtain ⟨-, high, -⟩ := h.adjusted_bounds nonzero rfl
    have range : maxExponent = 999999 := rfl
    omega
  obtain ⟨u, hu, unit⟩ : ∃ u, v.normalize = .ok u ∧ side.unitPlace ≤ u.exponent := by
    by_cases zero : v.coefficient = 0
    · obtain ⟨u, hu, whole⟩ := normalize_zero zero
      have := h.zero ((coefficient_eq_zero_iff same).1 zero)
      refine ⟨u, hu, ?_⟩
      rw [unitPlace]
      omega
    · obtain ⟨m, hm⟩ := h.multiple
      obtain ⟨-, high, unit⟩ := h.adjusted_bounds zero same
      have range : maxExponent = 999999 := rfl
      exact normalize_of_fit zero (h.fit_eq zero same short) (by omega) (same.trans hm)
  rw [unitPlace] at unit
  exact quantity_eq_ok_iff.2 ⟨v, u, s, r.exponent, hv, unsigned, hu, by omega, by omega, hs, fits,
    h.place, quantized⟩

/-- The number that a carried quantity is encoded as. -/
theorem exists_encoded (h : side.Carries r) (asset : Asset) :
    ∃ n : ℕ, Amount.encoded ⟨asset, .number r, side.precision⟩ = .ok n ∧
      (n : ℚ) = r.magnitude * 10 ^ (encodingPlaces : ℤ) ∧ n ≤ maxEncoded := by
  obtain ⟨m, hm⟩ := h.multiple
  have whole : r.magnitude * 10 ^ (encodingPlaces : ℤ) =
      (m * tenTo (side.unitPlace + encodingPlaces).toNat : ℕ) := by
    have unit : 0 ≤ side.unitPlace + encodingPlaces := by
      rw [unitPlace]
      omega
    have exact_multiple := mul_zpow_eq unit m
    rw [sub_zero, zpow_zero, mul_one] at exact_multiple
    rw [hm, mul_assoc, ← zpow_add₀ (by norm_num), exact_multiple]
  refine ⟨_, ?_, whole.symm, ?_⟩
  · obtain ⟨s, hs, positive, scaled⟩ := h.scale_eq h.unsigned rfl h.short
    exact map_eq_ok.2 ⟨s, ofArithmetic_eq_ok.2 hs, truncate_eq positive (scaled.trans whole)⟩
  · have bound := h.bound
    rw [whole] at bound
    exact_mod_cast bound

/-- The literal of a carried quantity can be read. -/
theorem literal_readable (h : side.Carries r) :
    r.literal.decimal.isReadable = true ∧
      width r.literal.decimal.coefficient ≤ Decimal.precision := by
  have same := r.literal_decimal_magnitude
  have range : tiniestExponent = -1000026 ∧ maxExponent = 999999 ∧ Decimal.precision = 28 :=
    ⟨rfl, rfl, rfl⟩
  have place : tiniestExponent ≤ r.literal.decimal.exponent ∧ r.literal.decimal.exponent ≤ 0 := by
    rcases r.literal_decimal with ⟨le, heq⟩ | ⟨-, heq⟩
    · rw [heq]
      exact ⟨h.low, le⟩
    · rw [heq]
      exact ⟨show tiniestExponent ≤ 0 by decide, le_rfl⟩
  have short : width r.literal.decimal.coefficient ≤ Decimal.precision := by
    rcases r.literal_decimal with ⟨-, heq⟩ | ⟨-, heq⟩
    · rw [heq]
      exact h.short
    · by_cases zero : r.literal.decimal.coefficient = 0
      · rw [zero]
        decide
      · obtain ⟨-, high, -⟩ := h.adjusted_bounds zero same
        have none : r.literal.decimal.exponent = 0 := by rw [heq]
        rw [adjusted, none] at high
        omega
  refine ⟨?_, short⟩
  rw [isReadable, Bool.and_eq_true, decide_eq_true_eq, decide_eq_true_eq, adjusted]
  omega

/-- **The text of a carried quantity is accepted as the same quantity.** -/
theorem quantity_toPlain (h : side.Carries r) : side.quantity (.text r.toPlain) = .ok r := by
  obtain ⟨readable, short⟩ := h.literal_readable
  refine h.quantity_eq (v := r.literal.decimal) ?_ r.literal_decimal_negative
    r.literal_decimal_magnitude short
  rw [Given.figure?, toPlain, plainChars_eq]
  exact r.literal.ofText?_literal readable

end Carries

end Side

end SignedOrders
