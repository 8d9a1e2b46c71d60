import SignedOrders.Proofs.Overreach

/-!
# Which numbers a side takes

A side can represent the multiples of its unit that fit into the encoding
(`Side.Represents`), and what is ideally done with a quantity is to accept it, as the number it
is, if the side can represent it, and to refuse it otherwise (`Side.Exact`).

Every number that a side can represent is admitted, but arithmetic on twenty-eight digits comes
between.  A quantity that overreaches the side ends in no refusal, and one that is **blurred**,
with digits that get lost before it is checked, is accepted for the number that is left.  For
all others the ideal holds, and only for them (`Side.exact_iff`): so for all quantities of up to
twenty-eight digits and moderate size at sides of up to sixteen places (`Side.exact_of_short`).
-/

namespace SignedOrders

open Decimal

namespace Side

variable {side : Side} {given : Given} {v u : Decimal}

/-- **The ideal for an amount of value `x`**: it is accepted as just this number if the side can
represent it, and refused otherwise. -/
structure Exact (side : Side) (given : Given) (x : ℚ) : Prop where
  accepts : side.Represents x →
    ∃ r : Decimal, r.value = x ∧ side.amount given = .ok ⟨side.asset, .number r, side.precision⟩
  refuses : ¬side.Represents x → ∃ e : Failure, e.RefusesAmount ∧ side.amount given = .error e

/-- The quantity passes all checks as another number, the one to which it is normalized. -/
def Blurs (side : Side) (v : Decimal) : Prop :=
  side.Admits v ∧ ∃ u, v.normalize = .ok u ∧ u.magnitude ≠ v.magnitude

/-! ## What can be represented is admitted -/

theorem isNegative_of_value_nonneg (h : 0 ≤ v.value) : v.isNegative = false := by
  by_cases zero : v.coefficient = 0
  · exact isNegative_of_zero zero
  refine isNegative_of_pos ?_
  rw [← Bool.not_eq_true]
  intro negative
  rw [value, if_pos negative, neg_nonneg] at h
  exact zero (magnitude_eq_zero_iff.1 (le_antisymm h v.magnitude_nonneg))

namespace Represents

variable (h : side.Represents v.magnitude)

include h

theorem shorten_magnitude : v.shorten.magnitude = v.magnitude := by
  obtain ⟨m, hm, bound⟩ := h.exists_units
  exact shorten_of_units hm (bound.trans_lt (by decide))

theorem leading_bounds (nonzero : v.coefficient ≠ 0) : -8 ≤ v.leading ∧ v.leading < 12 := by
  have kept : side.Represents v.shorten.magnitude := h.shorten_magnitude ▸ h
  obtain ⟨low, high, -⟩ := kept.adjusted_bounds (shorten_ne_zero nonzero)
  exact ⟨low, high⟩

/-- Fitting does no more than to remove zeros at the end. -/
theorem fit_eq (nonzero : v.coefficient ≠ 0) :
    v.fit = .ok v.shorten ∧ v.shorten.fit = .ok v.shorten := by
  have range : minExponent = -999999 ∧ maxExponent = 999999 := ⟨rfl, rfl⟩
  obtain ⟨low, high⟩ := h.leading_bounds nonzero
  have first : v.shorten.adjusted = v.leading := rfl
  constructor
  · cases fitted : v.fit with
    | error signal =>
      obtain ⟨-, -, far⟩ := fit_eq_error_iff.1 fitted
      omega
    | ok r =>
      obtain ⟨small, -⟩ | ⟨-, rfl⟩ := fit_cases nonzero fitted
      · obtain ⟨near, -⟩ := h.adjusted_bounds nonzero
        omega
      · rfl
  · exact fit_of_short (shorten_ne_zero nonzero) (width_shorten_le v) (by omega) (by omega)

theorem normalize (nonzero : v.coefficient ≠ 0) :
    ∃ u, v.normalize = .ok u ∧ side.unitPlace ≤ u.exponent := by
  obtain ⟨fitted, stable⟩ := h.fit_eq nonzero
  obtain ⟨m, hm, -⟩ := h.exists_units
  have unit : side.unitPlace ≤ maxExponent := by
    have range : maxExponent = 999999 := rfl
    obtain ⟨-, high, unit⟩ := h.adjusted_bounds nonzero
    omega
  have same : v.normalize = v.shorten.normalize := by
    rw [Decimal.normalize, Decimal.normalize, fitted, stable]
  rw [same]
  exact normalize_of_fit (shorten_ne_zero nonzero) stable unit (h.shorten_magnitude.trans hm)

theorem scale (unsigned : v.isNegative = false) (nonzero : v.coefficient ≠ 0) :
    ∃ s, v.scale encodingPlaces = .ok s ∧ s.exceeds maxEncoded = false := by
  have range : minExponent = -999999 ∧ maxExponent = 999999 ∧ encodingPlaces = 8 :=
    ⟨rfl, rfl, rfl⟩
  cases scaled : v.scale encodingPlaces with
  | error signal =>
    obtain ⟨-, -, far⟩ := (scale_eq_error_iff (by decide)).1 scaled
    obtain ⟨-, high⟩ := h.leading_bounds nonzero
    omega
  | ok s =>
    have normal : ¬(v.adjusted < minExponent ∧ v.exponent < tiniestExponent) := by
      obtain ⟨near, -⟩ := h.adjusted_bounds nonzero
      omega
    obtain ⟨positive, size⟩ := scaled_of_normal unsigned nonzero normal scaled
    rw [h.shorten_magnitude] at size
    refine ⟨s, rfl, ?_⟩
    rw [← Bool.not_eq_true, exceeds_iff positive, size, not_lt]
    exact h.bound

end Represents

/-- **What a side can represent passes its checks**, in however many digits it is written. -/
theorem admits_of_represents (places : 0 ≤ side.precision) (h : side.Represents v.value) :
    side.Admits v := by
  have unsigned := isNegative_of_value_nonneg h.nonneg
  rw [value_of_not_negative unsigned] at h
  by_cases zero : v.coefficient = 0
  · obtain ⟨u, hu, whole⟩ := normalize_zero zero
    refine ⟨unsigned, ⟨u, hu, by omega, by omega⟩, ?_⟩
    obtain ⟨e, fitted⟩ := fit_zero (d := { v with exponent := v.exponent + encodingPlaces }) zero
    refine ⟨_, (scale_eq (by decide)).trans fitted, exceeds_of_zero ?_ maxEncoded⟩
    exact zero
  · obtain ⟨u, hu, unit⟩ := h.normalize zero
    rw [unitPlace] at unit
    exact ⟨unsigned, ⟨u, hu, by omega, by omega⟩, h.scale unsigned zero⟩

/-! ## What is accepted -/

theorem amount_eq_ok {r : Decimal} (h : side.quantity given = .ok r) :
    side.amount given = .ok ⟨side.asset, .number r, side.precision⟩ :=
  map_eq_ok.2 ⟨r, h, rfl⟩

/-- **What is accepted** has passed the checks, is a number that the side can represent, and is
the one to which the given quantity is normalized. -/
theorem of_quantity {r : Decimal} (reads : given.figure? = some (.number v))
    (h : side.quantity given = .ok r) :
    side.Admits v ∧ side.Represents r.value ∧
      ∃ u, v.normalize = .ok u ∧ (r.value = v.value ↔ u.magnitude = v.magnitude) := by
  have carried := carries_of_quantity h
  have value := value_of_not_negative carried.unsigned
  obtain ⟨v', u, s, e, reads', unsigned, hu, fine, encodable, hs, fits, last, hr⟩ :=
    quantity_eq_ok_iff.1 h
  cases reads.symm.trans reads'
  have unit : side.unitPlace ≤ u.exponent := by
    rw [unitPlace]
    omega
  refine ⟨⟨unsigned, ⟨u, hu, fine, encodable⟩, s, hs, fits⟩, value.symm ▸ carried.represents,
    u, hu, ?_⟩
  rw [value, value_of_not_negative unsigned, magnitude_of_quantize hu unit last hr]

theorem value_of_quantity {r : Decimal} (reads : given.figure? = some (.number v))
    (h : side.quantity given = .ok r) : r.value = v.value ↔ ¬side.Blurs v := by
  obtain ⟨admits, -, u, hu, same⟩ := of_quantity reads h
  rw [same]
  constructor
  · rintro same ⟨-, u', hu', blurred⟩
    cases hu.symm.trans hu'
    exact blurred same
  · intro sharp
    by_contra blurred
    exact sharp ⟨admits, u, hu, blurred⟩

/-! ## When amounts are exact -/

section

variable (reads : given.figure? = some (.number v)) (places : 0 ≤ side.precision)

include reads places

/-- A quantity is accepted after all checks, or refused for one of them, or has no result. -/
theorem quantity_cases : (∃ r, side.quantity given = .ok r ∧ side.Admits v ∧ ¬side.Overreaches v) ∨
    (∃ e : Failure, e.RefusesAmount ∧ side.quantity given = .error e ∧ ¬side.Admits v ∧
      ¬side.Overreaches v) ∨
    ∃ e : Failure, e.IsArithmetic ∧ side.quantity given = .error e ∧ side.Overreaches v := by
  cases h : side.quantity given with
  | ok r =>
    refine .inl ⟨r, rfl, (of_quantity reads h).1, fun overreaches => ?_⟩
    obtain ⟨e, -, failed⟩ := quantity_of_overreaches reads places overreaches
    cases h.symm.trans failed
  | error e =>
    rcases quantity_error reads places h with ⟨refuses, within⟩ | ⟨arithmetic, overreaches⟩
    · refine .inr (.inl ⟨e, refuses, rfl, fun admits => ?_, within⟩)
      rw [quantity_of_admits reads admits] at h
      exact within (.inr ⟨admits, ((atLastPlace_halfEven_iff places).1 h).2⟩)
    · exact .inr (.inr ⟨e, arithmetic, rfl, overreaches⟩)

theorem exact_of_sharp (within : ¬side.Overreaches v) (sharp : ¬side.Blurs v) :
    side.Exact given v.value := by
  rcases quantity_cases reads places with ⟨r, h, -⟩ | ⟨e, refuses, h, barred, -⟩ | ⟨-, -, -, far⟩
  · have value := (value_of_quantity reads h).2 sharp
    obtain ⟨-, represents, -⟩ := of_quantity reads h
    exact ⟨fun _ => ⟨r, value, amount_eq_ok h⟩,
      fun unable => absurd (value ▸ represents) unable⟩
  · exact ⟨fun represents => absurd (admits_of_represents places represents) barred,
      fun _ => ⟨e, refuses, map_eq_error.2 h⟩⟩
  · exact absurd far within

theorem sharp_of_exact (exact : side.Exact given v.value) :
    ¬side.Overreaches v ∧ ¬side.Blurs v := by
  rcases quantity_cases reads places with ⟨r, h, -, within⟩ | ⟨-, -, -, barred, within⟩ |
    ⟨_, ⟨signal, rfl⟩, h, -⟩
  · have taken := amount_eq_ok h
    refine ⟨within, (value_of_quantity reads h).1 ?_⟩
    by_cases represents : side.Represents v.value
    · obtain ⟨r', value, taken'⟩ := exact.accepts represents
      cases taken.symm.trans taken'
      exact value
    · obtain ⟨e, -, failed⟩ := exact.refuses represents
      cases taken.symm.trans failed
  · exact ⟨within, fun blurs => barred blurs.1⟩
  · -- a failure by arithmetic is neither an amount nor a refusal
    have failed : side.amount given = .error (.ofSignal signal) := map_eq_error.2 h
    by_cases represents : side.Represents v.value
    · obtain ⟨r, -, taken⟩ := exact.accepts represents
      cases failed.symm.trans taken
    · obtain ⟨e, ⟨cause, refuses, rfl⟩, failed'⟩ := exact.refuses represents
      cases failed.symm.trans failed'
      exact refuses.elim

/-- **Amounts of moderate length and size are exact** at sides of up to sixteen places: with
twelve digits before the point that leaves no quantity which has to be rounded. -/
theorem exact_of_short (few : side.precision ≤ 16) (short : width v.coefficient ≤ Decimal.precision)
    (moderate : v.coefficient ≠ 0 →
      minExponent ≤ v.adjusted ∧ v.adjusted + encodingPlaces ≤ maxExponent) :
    side.Exact given v.value := by
  have range : Decimal.precision = 28 ∧ maxExponent = 999999 ∧ tiniestExponent = -1000026 :=
    ⟨rfl, rfl, rfl⟩
  refine exact_of_sharp reads places ?_ fun ⟨_, u, hu, blurred⟩ => blurred ?_
  · rintro (⟨positive, far⟩ | ⟨⟨unsigned, -, s, hs, fits⟩, far | ⟨nonzero, strains⟩⟩)
    · obtain ⟨-, high⟩ := moderate (isPositive_iff_sign.1 positive).2
      rw [leading_of_short short] at far
      omega
    · have most : maxScale = 2000054 := rfl
      omega
    · obtain ⟨low, -⟩ := moderate nonzero
      obtain ⟨sign, size⟩ := scaled_of_normal unsigned nonzero (by omega) hs
      rw [← Bool.not_eq_true, exceeds_iff sign, size, shorten_of_le short, not_lt] at fits
      have high := adjusted_lt nonzero (lt_of_encodable fits)
      rw [leading_of_short short, place] at strains
      omega
  · obtain ⟨y, fitted, hy⟩ := normalize_cases hu
    have same : y.magnitude = v.magnitude := by
      by_cases zero : v.coefficient = 0
      · obtain ⟨e, fitted'⟩ := fit_zero zero
        cases fitted'.symm.trans fitted
        rw [magnitude_eq_zero_iff.2 zero, magnitude_eq_zero_iff]
        exact zero
      · obtain ⟨low, high⟩ := moderate zero
        cases (fit_of_short zero short low (by omega)).symm.trans fitted
        rfl
    rw [← same]
    rcases hy with ⟨vanished, none, -⟩ | ⟨-, kept, -⟩
    · rw [magnitude_eq_zero_iff.2 vanished, magnitude_eq_zero_iff.2 none]
    · exact kept.symm

/-- **When amounts are exact.**  A side accepts a quantity, as the number it is, just if it can
represent it, and refuses it otherwise: this holds exactly for the quantities that neither
overreach the side nor are blurred. -/
theorem exact_iff : side.Exact given v.value ↔ ¬side.Overreaches v ∧ ¬side.Blurs v :=
  ⟨sharp_of_exact reads places, fun h => exact_of_sharp reads places h.1 h.2⟩

end

theorem exact_iff_eth :
    Given.figure? (.text "1.5") = some (.number ⟨false, 15, -1⟩) ∧ (0 : ℤ) ≤ 8 ∧
      (Exact ⟨.eth, 8⟩ (.text "1.5") (value ⟨false, 15, -1⟩) ↔
        ¬Overreaches ⟨.eth, 8⟩ ⟨false, 15, -1⟩ ∧ ¬Blurs ⟨.eth, 8⟩ ⟨false, 15, -1⟩) :=
  have reads : Given.figure? (.text "1.5") = some (.number ⟨false, 15, -1⟩) := by decide +kernel
  ⟨reads, by decide, exact_iff reads (by decide)⟩

/-- **Some amounts are not exact**: with a one at its twenty-ninth place a quantity is accepted
for the number without it, and at a side of eighteen places a quantity of eleven digits ends in
a failure by arithmetic, although the side can represent it. -/
theorem exists_inexact :
    amount ⟨.eth, 8⟩ (.text "1.00000000000000000000000000001") =
        .ok ⟨.eth, .number ⟨false, 100000000, -8⟩, 8⟩ ∧
      Given.figure? (.text "1.00000000000000000000000000001") =
        some (.number ⟨false, 100000000000000000000000000001, -29⟩) ∧
      ¬Represents ⟨.eth, 8⟩ (value ⟨false, 100000000000000000000000000001, -29⟩) ∧
      amount ⟨.eth, 18⟩ (.text "10000000000") = .error (.ofSignal .invalidOperation) ∧
      Given.figure? (.text "10000000000") = some (.number ⟨false, 10000000000, 0⟩) ∧
      Represents ⟨.eth, 18⟩ (value ⟨false, 10000000000, 0⟩) := by
  refine ⟨by decide +kernel, by decide +kernel, fun ⟨_, ⟨m, whole⟩, _⟩ => ?_,
    by decide +kernel, by decide +kernel, ?_, ⟨1000000000000000000, ?_⟩, ?_⟩
  · norm_num [value, magnitude, encodingPlaces] at whole
    rw [div_eq_iff (by norm_num)] at whole
    have units : (100000000000000000000000000001 : ℤ) = m * 1000000000000000000000 := by
      exact_mod_cast whole
    omega
  · norm_num [value, magnitude]
  · norm_num [value, magnitude, encodingPlaces]
  · norm_num [value, magnitude, encodingPlaces, maxEncoded]

end Side

end SignedOrders
