import Mathlib.Data.Rat.Floor
import SignedOrders.Proofs.Price
import SignedOrders.Proofs.Representable

/-!
# What a buyer pays

Ideally a buyer pays the product of quantity and price, **cut** to the places of the quote
(`Side.cut`): never more than the limit allows, and less by no more than one unit of the last
place.  But the product is fitted to twenty-eight digits before it is cut, and what is cut is
the fitted number (`LimitOrder.cost_eq_ok`).

Since fitting passes no number of the quote's places, this makes a difference in two cases only
(`Side.cut_fit_iff`).  Fitting may **lift** the product onto the next such number, and the
buyer pays that one; or, at a quote of more than a million places, it may leave nothing of
the product.

The cost is then taken as an amount of the quote, so that a request is refused if the number
that has been cut cannot be represented there, although it has been cut for this purpose
(`LimitOrder.placed_iff`).
-/

namespace SignedOrders

open Decimal

namespace Side

variable {side : Side} {d r v : Decimal} {x y : ℚ}

/-! ## Cutting numbers -/

/-- What is left of a number without its digits behind the places of the side. -/
def cut (side : Side) (x : ℚ) : ℚ := ⌊x * 10 ^ side.precision⌋ * 10 ^ (-side.precision)

theorem unit_cancel (side : Side) (x : ℚ) :
    x * 10 ^ side.precision * 10 ^ (-side.precision) = x := by
  rw [zpow_neg, mul_inv_cancel_right₀ (ten_zpow_pos _).ne']

theorem cut_le (side : Side) (x : ℚ) : side.cut x ≤ x := by
  have below := mul_le_mul_of_nonneg_right (Int.floor_le (x * 10 ^ side.precision))
    (ten_zpow_pos (-side.precision)).le
  rwa [unit_cancel] at below

theorem lt_cut_add (side : Side) (x : ℚ) : x < side.cut x + 10 ^ (-side.precision) := by
  have above := mul_lt_mul_of_pos_right (Int.lt_floor_add_one (x * 10 ^ side.precision))
    (ten_zpow_pos (-side.precision))
  rwa [unit_cancel, add_mul, one_mul] at above

theorem cut_mono (side : Side) (h : x ≤ y) : side.cut x ≤ side.cut y := by
  have floors : ⌊x * 10 ^ side.precision⌋ ≤ ⌊y * 10 ^ side.precision⌋ :=
    Int.floor_le_floor (mul_le_mul_of_nonneg_right h (ten_zpow_pos _).le)
  exact mul_le_mul_of_nonneg_right (Int.cast_le.2 floors) (ten_zpow_pos _).le

/-- What is cut differs by whole units of the last place. -/
theorem cut_add_le (h : side.cut x < side.cut y) :
    side.cut x + 10 ^ (-side.precision) ≤ side.cut y := by
  have unit := ten_zpow_pos (-side.precision)
  have floors : ⌊x * 10 ^ side.precision⌋ < ⌊y * 10 ^ side.precision⌋ :=
    Int.cast_lt.1 (lt_of_mul_lt_mul_right h unit.le)
  have next : ((⌊x * 10 ^ side.precision⌋ : ℚ) + 1) ≤ ⌊y * 10 ^ side.precision⌋ :=
    by exact_mod_cast floors
  have step := mul_le_mul_of_nonneg_right next unit.le
  rwa [add_mul, one_mul] at step

/-- **A multiple of the unit is what is left of the numbers up to the next one.** -/
theorem cut_eq {k : ℤ} (low : (k : ℚ) * 10 ^ (-side.precision) ≤ x)
    (high : x < k * 10 ^ (-side.precision) + 10 ^ (-side.precision)) :
    side.cut x = k * 10 ^ (-side.precision) := by
  have floor : ⌊x * 10 ^ side.precision⌋ = k := by
    have unit := ten_zpow_pos (-side.precision)
    rw [← unit_cancel side x] at low high
    refine Int.floor_eq_iff.2 ⟨le_of_mul_le_mul_right low unit, ?_⟩
    rw [← add_one_mul] at high
    exact lt_of_mul_lt_mul_right high unit.le
  rw [cut, floor]

theorem cut_of_multiple {k : ℤ} (h : x = k * 10 ^ (-side.precision)) : side.cut x = x := by
  rw [h]
  exact cut_eq le_rfl (lt_add_of_pos_right _ (ten_zpow_pos _))

theorem cut_zero (side : Side) : side.cut 0 = 0 :=
  cut_of_multiple (k := 0) (by rw [Int.cast_zero, zero_mul])

/-- Two numbers leave the same just if one lies within a unit above what is left of the other. -/
theorem cut_within_iff : side.cut y ≤ x ∧ x < side.cut y + 10 ^ (-side.precision) ↔
    side.cut y = side.cut x := by
  constructor
  · rintro ⟨low, high⟩
    exact (cut_eq low high).symm
  · intro same
    rw [same]
    exact ⟨side.cut_le x, side.lt_cut_add x⟩

theorem exists_cut_eq (side : Side) (h : 0 ≤ x) :
    ∃ k : ℕ, side.cut x = k * 10 ^ (-side.precision) := by
  have nonneg : 0 ≤ ⌊x * 10 ^ side.precision⌋ :=
    Int.floor_nonneg.2 (mul_nonneg h (ten_zpow_pos _).le)
  lift ⌊x * 10 ^ side.precision⌋ to ℕ using nonneg with k hk
  refine ⟨k, ?_⟩
  rw [cut, ← hk, Int.cast_natCast]

/-- Cutting takes nothing from a decimal whose exponent is not below the places of the side. -/
theorem cut_of_exponent (h : -side.precision ≤ d.exponent) :
    side.cut d.magnitude = d.magnitude := by
  obtain ⟨m, hm⟩ := exists_magnitude_eq h
  refine cut_of_multiple (k := m) ?_
  rw [hm, Int.cast_natCast]

/-! ## Fitting before cutting -/

/-- **Fitting lifts the number onto the places of the side**: it is rounded up, to a number
without digits behind these places. -/
def Lifts (side : Side) (d : Decimal) : Prop :=
  ∃ r, d.fit = .ok r ∧ d.magnitude < r.magnitude ∧ side.cut r.magnitude = r.magnitude

/-- **Fitting loses the number**: nothing is left of it, although it is not less than a unit of
the last place of the side. -/
def Loses (side : Side) (d : Decimal) : Prop :=
  ∃ r, d.fit = .ok r ∧ r.magnitude = 0 ∧ 10 ^ (-side.precision) ≤ d.magnitude

theorem not_lifts_of_expressible (h : Expressible d.magnitude) : ¬side.Lifts d := by
  rintro ⟨r, fitted, up, -⟩
  exact absurd (magnitude_of_fit fitted h) up.ne'

/-- A number that does not strain a side has no more than twenty-eight digits there. -/
theorem fit_lt_of_eased (places : 0 ≤ side.precision) (fitted : d.fit = .ok r)
    (eased : ¬side.Strains d) : r.magnitude < 10 ^ (side.place + Decimal.precision) := by
  obtain ⟨low, -⟩ := place_bounds places
  obtain ⟨short, same⟩ := reach_of_fit fitted
  by_cases zero : r.coefficient = 0
  · rw [magnitude_eq_zero_iff.2 zero]
    exact ten_zpow_pos _
  have near : ¬(Decimal.precision : ℤ) ≤ r.leading - side.place := fun far =>
    eased (.inr ((same side.place low).1 ⟨zero, far⟩))
  rw [leading_of_short short] at near
  refine r.magnitude_lt_zpow.trans_le (zpow_le_zpow_right₀ (by norm_num) ?_)
  omega

section

variable (places : 0 ≤ side.precision) (fitted : d.fit = .ok r) (eased : ¬side.Strains d)

include places fitted eased

/-- What is left of the fitted number, and the next such number, are expressible, if decimals
have the places of the side. -/
theorem expressible_cut (within : -side.precision ≥ tiniestExponent) :
    Expressible (side.cut r.magnitude) ∧
      Expressible (side.cut r.magnitude + 10 ^ (-side.precision)) := by
  obtain ⟨k, hk⟩ := side.exists_cut_eq r.magnitude_nonneg
  have few : k < tenTo Decimal.precision := by
    have below := (side.cut_le _).trans_lt (fit_lt_of_eased places fitted eased)
    rw [hk, place, max_eq_left within, add_comm, zpow_add₀ (by norm_num), ← cast_tenTo] at below
    exact_mod_cast lt_of_mul_lt_mul_right below (ten_zpow_pos _).le
  rw [hk]
  refine ⟨expressible_of_le few.le within, ?_⟩
  have next := expressible_of_le (Nat.succ_le_of_lt few) within
  rwa [Nat.cast_succ, add_one_mul] at next

/-- **A number is lifted** when more is left of it after fitting. -/
theorem cut_eq_of_cut_lt (differ : side.cut d.magnitude < side.cut r.magnitude) :
    side.cut r.magnitude = r.magnitude := by
  have above : d.magnitude ≤ side.cut r.magnitude :=
    (side.lt_cut_add _).le.trans (cut_add_le differ)
  rcases le_or_gt tiniestExponent (-side.precision) with within | beyond
  · exact le_antisymm (side.cut_le _)
      (of_fit_le fitted (expressible_cut places fitted eased within).1 above)
  · exact cut_of_exponent (beyond.le.trans (range_of_fit fitted).1)

/-- **A number is lost** when less is left of it after fitting, and the rest can be
represented. -/
theorem magnitude_eq_zero_of_cut_lt (differ : side.cut r.magnitude < side.cut d.magnitude)
    (represents : side.Represents (side.cut r.magnitude)) : r.magnitude = 0 := by
  rcases le_or_gt tiniestExponent (-side.precision) with within | beyond
  · -- the next number at the places of the side would be passed
    have next := le_of_fit fitted (expressible_cut places fitted eased within).2
      ((cut_add_le differ).trans (side.cut_le _))
    exact absurd next (not_le.2 (side.lt_cut_add _))
  · rw [cut_of_exponent (beyond.le.trans (range_of_fit fitted).1)] at represents
    by_contra some_left
    have nonzero := magnitude_eq_zero_iff.not.1 some_left
    obtain ⟨low, -⟩ := represents.adjusted_bounds nonzero
    have high := adjusted_lt nonzero (fit_lt_of_eased places fitted eased)
    have range : tiniestExponent = -1000026 ∧ Decimal.precision = 28 := ⟨rfl, rfl⟩
    rw [place, max_eq_right beyond.le] at high
    omega

/-- **No more is left of a number after fitting**, unless it is lifted. -/
theorem cut_fit_le (level : ¬side.Lifts d) : side.cut r.magnitude ≤ side.cut d.magnitude := by
  by_contra more
  rw [not_le] at more
  refine level ⟨r, fitted, ?_, cut_eq_of_cut_lt places fitted eased more⟩
  by_contra down
  exact absurd more (not_lt.2 (side.cut_mono (not_lt.1 down)))

/-- **When fitting does not change what is left**: unless it lifts the number or loses it. -/
theorem cut_fit_iff (represents : side.Represents (side.cut r.magnitude)) :
    side.cut r.magnitude = side.cut d.magnitude ↔ ¬side.Lifts d ∧ ¬side.Loses d := by
  constructor
  · intro same
    constructor
    · rintro ⟨r', fitted', up, whole⟩
      cases fitted.symm.trans fitted'
      rw [← whole, same] at up
      exact absurd up (not_lt.2 (side.cut_le _))
    · rintro ⟨r', fitted', none, reaches⟩
      cases fitted.symm.trans fitted'
      have unit := side.cut_mono reaches
      rw [← same, none, cut_of_multiple (k := 1) (by rw [Int.cast_one, one_mul]), cut_zero] at unit
      exact absurd unit (not_le.2 (ten_zpow_pos _))
  · rintro ⟨level, kept⟩
    refine le_antisymm (cut_fit_le places fitted eased level) (not_lt.1 fun less => ?_)
    have none := magnitude_eq_zero_of_cut_lt places fitted eased less represents
    refine absurd ⟨r, fitted, none, ?_⟩ kept
    have next := (cut_add_le less).trans (side.cut_le _)
    rwa [none, cut_zero, zero_add] at next

end

/-! ## Affordable numbers -/

/-- A number of which no more is left than fits into the encoding does not strain a side of at most
the places of the encoding. -/
theorem eased_of_cut_le (places : 0 ≤ side.precision) (few : side.precision ≤ encodingPlaces)
    (affordable : side.cut d.magnitude ≤ maxEncoded / 10 ^ encodingPlaces) : ¬side.Strains d := by
  have range : tiniestExponent = -1000026 ∧ Decimal.precision = 28 ∧ maxScale = 2000054 ∧
      encodingPlaces = 8 := ⟨rfl, rfl, rfl, rfl⟩
  have unit : (10 : ℚ) ^ (-side.precision) ≤ 1 :=
    zpow_le_one_of_nonpos₀ (by norm_num) (by omega)
  have moderate : d.magnitude < 10 ^ (12 : ℤ) := by
    have most : (maxEncoded : ℚ) / 10 ^ encodingPlaces + 1 < 10 ^ (12 : ℤ) := by
      norm_num [maxEncoded, encodingPlaces]
    have next := side.lt_cut_add d.magnitude
    linarith only [next, affordable, unit, most]
  rintro (far | ⟨nonzero, far⟩)
  · omega
  · have first := adjusted_lt nonzero moderate
    obtain ⟨-, near⟩ := adjusted_le_leading d
    rw [place, max_eq_left (by omega)] at far
    omega

/-- What is left of a number can be represented if it fits into the encoding, at a side of at most
the places of the encoding. -/
theorem represents_cut (few : side.precision ≤ encodingPlaces)
    (affordable : side.cut r.magnitude ≤ maxEncoded / 10 ^ encodingPlaces) :
    side.Represents (side.cut r.magnitude) where
  nonneg := by
    obtain ⟨k, hk⟩ := side.exists_cut_eq r.magnitude_nonneg
    rw [hk]
    exact mul_nonneg k.cast_nonneg (ten_zpow_pos _).le
  whole := by
    refine ⟨⌊r.magnitude * 10 ^ side.precision⌋, ?_⟩
    rw [min_eq_left few, cut, zpow_neg, inv_mul_cancel_right₀ (ten_zpow_pos _).ne']
  bound := by
    rwa [zpow_natCast, ← le_div_iff₀ (by positivity)]

/-- An expressible quantity is not blurred. -/
theorem not_blurs_of_expressible (h : Expressible v.magnitude) : ¬side.Blurs v := by
  rintro ⟨-, u, normalized, blurred⟩
  obtain ⟨r, fitted, same, -⟩ := normalize_eq_ok normalized
  exact blurred (same.trans (magnitude_of_fit fitted h))

end Side

namespace LimitOrder

variable {market : Market} {request : LimitRequest} {order : LimitOrder} {quote : Side}
  {quantity c : Decimal} {price : Price}

/-! ## Costs -/

/-- **What a cost is**: what is left, at the places of the quote, of the fitted product. -/
theorem cost_eq_ok (places : 0 ≤ quote.precision) (h : cost quote quantity price = .ok c) :
    ∃ r, (quantity.times price.value).fit = .ok r ∧ c.magnitude = quote.cut r.magnitude ∧
      ((quantity.times price.value).isNegative = false → c.isNegative = false) ∧
      Expressible c.magnitude ∧
      ¬quote.Strains (quantity.times price.value) := by
  have eased : ¬quote.Strains (quantity.times price.value) := fun strains => by
    obtain ⟨e, failed, -⟩ := (cost_eq_error_iff places).2 strains
    cases h.symm.trans failed
  obtain ⟨r, fitted, h⟩ := bind_eq_ok.1 h
  obtain ⟨e, last, h⟩ := bind_eq_ok.1 h
  rw [ofArithmetic_eq_ok] at fitted h
  obtain ⟨low, -, exponent, sign, short, -⟩ := quantize_cases h
  obtain ⟨below, above⟩ := quantize_down h
  have place := Side.lastPlace_eq_place last
  have kept (unsigned : (quantity.times price.value).isNegative = false) :
      c.isNegative = false := by
    by_cases zero : (quantity.times price.value).coefficient = 0
    · rw [magnitude_of_fit_zero zero fitted, magnitude_eq_zero_iff.2 zero] at below
      exact isNegative_of_zero (magnitude_eq_zero_iff.1 (le_antisymm below c.magnitude_nonneg))
    · exact isNegative_of_pos
        (sign.trans ((fit_negative fitted).trans (negative_eq_false unsigned zero)))
  refine ⟨r, fitted, ?_, kept, expressible_of_short short (by omega), eased⟩
  rcases le_or_gt tiniestExponent (-quote.precision) with within | beyond
  · rw [Side.place, max_eq_left within] at place
    have units : c.magnitude = (c.coefficient : ℤ) * 10 ^ (-quote.precision) := by
      rw [magnitude, exponent, place, Int.cast_natCast]
    rw [place, units] at above
    rw [units] at below ⊢
    exact (Side.cut_eq below above).symm
  · -- decimals have no digits behind the last place of the quote
    rw [Side.place, max_eq_right beyond.le] at place
    have last_digit := (range_of_fit fitted).1
    rw [Side.cut_of_exponent (beyond.le.trans last_digit)]
    exact magnitude_of_quantize_le h (place.trans_le last_digit)

/-- What an order to buy pays, step by step: the cost of the quantity, taken as an amount of the
quote. -/
theorem exists_cost_of_buy (buys : request.direction = .buy)
    (h : ofRequest market request = .ok order) :
    ∃ q c s, market.base.quantity (.figure (.number request.amount)) = .ok q ∧
      request.price.isPositive = true ∧ cost market.quote q ⟨request.price⟩ = .ok c ∧
      market.quote.quantity (.figure (.number c)) = .ok s ∧
      order.amount = ⟨market.base.asset, .number q, market.base.precision⟩ ∧
      order.source = ⟨market.quote.asset, .number s, market.quote.precision⟩ := by
  obtain ⟨q, source, destination, accepted, positive, pays, rfl⟩ := ofRequest_eq_ok_iff.1 h
  cases pays with
  | sell sells => cases buys.symm.trans sells
  | buy _ c _ costs carried =>
    obtain ⟨s, taken, rfl⟩ := map_eq_ok.1 carried
    exact ⟨q, c, s, accepted, positive, costs, taken, rfl, rfl⟩

/-- The exact product of what a side has accepted and a price has no sign. -/
theorem times_unsigned {side : Side} {given : Given} {q : Decimal}
    (accepted : side.quantity given = .ok q) (positive : request.price.isPositive = true) :
    (q.times request.price).isNegative = false := by
  have unsigned := (Side.carries_of_quantity accepted).unsigned
  obtain ⟨sign, -⟩ := isPositive_iff_sign.1 positive
  by_cases zero : q.coefficient = 0
  · refine isNegative_of_zero ?_
    rw [times, zero, Nat.zero_mul]
  · refine isNegative_of_pos ?_
    rw [times, sign, negative_eq_false unsigned zero]
    rfl

/-- **What is taken of a cost is the cost.** -/
theorem magnitude_of_cost {q s : Decimal} (places : 0 ≤ quote.precision)
    (costs : cost quote q price = .ok c)
    (taken : quote.quantity (.figure (.number c)) = .ok s) : s.magnitude = c.magnitude := by
  obtain ⟨-, -, -, -, expressible, -⟩ := cost_eq_ok places costs
  obtain ⟨admits, -⟩ := Side.of_quantity (Given.figure?_figure _) taken
  have same := (Side.value_of_quantity (Given.figure?_figure _) taken).2
    (Side.not_blurs_of_expressible expressible)
  rwa [value_of_not_negative admits.unsigned,
    value_of_not_negative (Side.carries_of_quantity taken).unsigned] at same

/-- **How much more than the limit is paid at most**: half a unit of the twenty-eighth digit. -/
theorem source_le {q s : Decimal} (places : 0 ≤ quote.precision)
    (costs : cost quote q price = .ok c)
    (taken : quote.quantity (.figure (.number c)) = .ok s) :
    s.magnitude ≤ (q.times price.value).magnitude * (1 + 5 / 10 ^ 28) := by
  have represents := (Side.carries_of_quantity taken).represents
  have value := magnitude_of_cost places costs taken
  obtain ⟨r, fitted, cuts, -⟩ := cost_eq_ok places costs
  have below : s.magnitude ≤ r.magnitude := by
    rw [value, cuts]
    exact quote.cut_le _
  have nonneg := (q.times price.value).magnitude_nonneg
  have near := fit_le_add fitted
  generalize (q.times price.value).magnitude = product at nonneg near ⊢
  rcases near with digit | tiny
  · linarith only [below, digit]
  by_cases zero : s.coefficient = 0
  · rw [magnitude_eq_zero_iff.2 zero]
    positivity
  · -- what can be represented is much more than a unit of the tiniest place
    obtain ⟨first, -⟩ := represents.adjusted_bounds zero
    have large : (10 : ℚ) ^ (-8 : ℤ) ≤ s.magnitude :=
      (zpow_le_zpow_right₀ (by norm_num) first).trans (zpow_adjusted_le zero)
    have small : (10 : ℚ) ^ tiniestExponent ≤ 10 ^ (-50 : ℤ) :=
      zpow_le_zpow_right₀ (by norm_num) (by decide)
    norm_num at large
    generalize (10 : ℚ) ^ tiniestExponent = unit at small tiny
    norm_num at small ⊢
    linarith only [below, tiny, large, small]

/-- **When a buyer pays within the limit.**  What is paid is at most the product of the amount and
the price as it was given, and less by less than a unit of the quote's last place, just if
fitting neither lifts the product nor loses it; and it never exceeds the product by more than
half a unit of its twenty-eighth digit.  The amount is the one that was given, unless it is
blurred. -/
theorem source_within_iff (placed : market.Placed) (buys : request.direction = .buy)
    (h : ofRequest market request = .ok order) :
    ∃ q s : Decimal,
      order.amount = ⟨market.base.asset, .number q, market.base.precision⟩ ∧
      order.source = ⟨market.quote.asset, .number s, market.quote.precision⟩ ∧
      (q.value = request.amount.value ↔ ¬market.base.Blurs request.amount) ∧
      (s.value ≤ q.value * request.price.value ∧
          q.value * request.price.value < s.value + 10 ^ (-market.quote.precision) ↔
        ¬market.quote.Lifts (q.times request.price) ∧
          ¬market.quote.Loses (q.times request.price)) ∧
      s.value ≤ q.value * request.price.value * (1 + 5 / 10 ^ 28) := by
  obtain ⟨q, c, s, accepted, positive, costs, taken, amount, source⟩ := exists_cost_of_buy buys h
  have carried := Side.carries_of_quantity taken
  have most := source_le placed.quote costs taken
  obtain ⟨r, fitted, cuts, -, -, eased⟩ := cost_eq_ok placed.quote costs
  have paid : s.magnitude = market.quote.cut r.magnitude :=
    (magnitude_of_cost placed.quote costs taken).trans cuts
  have represents := carried.represents
  rw [paid] at represents
  have product : q.value * request.price.value = (q.times request.price).magnitude := by
    rw [← value_times, value_of_not_negative (times_unsigned accepted positive)]
  refine ⟨q, s, amount, source, Side.value_of_quantity (Given.figure?_figure _) accepted, ?_⟩
  rw [product, value_of_not_negative carried.unsigned]
  refine ⟨?_, most⟩
  rw [paid]
  exact Side.cut_within_iff.trans (Side.cut_fit_iff placed.quote fitted eased represents)

/-- A request to buy an amount at a price. -/
def buying (amount price : Decimal) : LimitRequest :=
  ⟨"neo_gas", .buy, amount, price, .standard, true, none⟩

/-- The market on which it is placed, with the places of the quote. -/
def quotedWith (places : ℤ) : Market := ⟨⟨.neo, 8⟩, ⟨.gas, places⟩, false⟩

/-- Three for a half each are paid within the limit. -/
theorem source_within_iff_half :
    (quotedWith 8).Placed ∧ (buying ⟨false, 3, 0⟩ ⟨false, 5, -1⟩).direction = .buy ∧
      ∃ order, ofRequest (quotedWith 8) (buying ⟨false, 3, 0⟩ ⟨false, 5, -1⟩) = .ok order ∧
        order.source = ⟨.gas, .number ⟨false, 150000000, -8⟩, 8⟩ ∧
        ¬Side.Lifts ⟨.gas, 8⟩ (times ⟨false, 300000000, -8⟩ ⟨false, 5, -1⟩) ∧
        ¬Side.Loses ⟨.gas, 8⟩ (times ⟨false, 300000000, -8⟩ ⟨false, 5, -1⟩) := by
  have placed : (quotedWith 8).Placed := ⟨by decide, by decide⟩
  have made : ofRequest (quotedWith 8) (buying ⟨false, 3, 0⟩ ⟨false, 5, -1⟩) = .ok
      { market := quotedWith 8, direction := .buy
        amount := ⟨.neo, .number ⟨false, 300000000, -8⟩, 8⟩, price := ⟨⟨false, 5, -1⟩⟩
        source := ⟨.gas, .number ⟨false, 150000000, -8⟩, 8⟩, destination := .neo
        policy := .standard, allowTaker := true, clientOrderId := none } := by
    decide +kernel
  obtain ⟨q, s, amount, source, -, within, -⟩ := source_within_iff placed rfl made
  cases amount
  cases source
  refine ⟨placed, rfl, _, made, rfl, within.1 ⟨?_, ?_⟩⟩
  · norm_num [buying, value, magnitude]
  · norm_num [buying, quotedWith, value, magnitude]

/-- **Some buyers pay more than the limit**: a product with a twenty-ninth digit is rounded up to
ten. -/
theorem exists_overspent :
    (∃ order, ofRequest (quotedWith 8)
        (buying ⟨false, 12, 0⟩ ⟨false, 8333333333333333333333333333, -28⟩) = .ok order ∧
      order.amount = ⟨.neo, .number ⟨false, 1200000000, -8⟩, 8⟩ ∧
      order.source = ⟨.gas, .number ⟨false, 1000000000, -8⟩, 8⟩) ∧
    value ⟨false, 1200000000, -8⟩ = value ⟨false, 12, 0⟩ ∧
    value ⟨false, 12, 0⟩ * value ⟨false, 8333333333333333333333333333, -28⟩ <
      value ⟨false, 1000000000, -8⟩ := by
  have made : ofRequest (quotedWith 8)
      (buying ⟨false, 12, 0⟩ ⟨false, 8333333333333333333333333333, -28⟩) = .ok
      { market := quotedWith 8, direction := .buy
        amount := ⟨.neo, .number ⟨false, 1200000000, -8⟩, 8⟩
        price := ⟨⟨false, 8333333333333333333333333333, -28⟩⟩
        source := ⟨.gas, .number ⟨false, 1000000000, -8⟩, 8⟩, destination := .neo
        policy := .standard, allowTaker := true, clientOrderId := none } := by
    decide +kernel
  exact ⟨⟨_, made, rfl, rfl⟩, by norm_num [value, magnitude], by norm_num [value, magnitude]⟩

/-! ## Requests that are placed -/

/-- What an order to buy needs, beside an amount that is accepted and a positive price: a cost
that the quote takes. -/
theorem exists_ofRequest_iff {q : Decimal} (buys : request.direction = .buy)
    (positive : request.price.isPositive = true)
    (accepted : market.base.quantity (.figure (.number request.amount)) = .ok q) :
    (∃ order, ofRequest market request = .ok order) ↔
      ∃ c s, cost market.quote q ⟨request.price⟩ = .ok c ∧
        market.quote.quantity (.figure (.number c)) = .ok s := by
  constructor
  · rintro ⟨order, h⟩
    obtain ⟨q', c, s, accepted', -, costs, taken, -⟩ := exists_cost_of_buy buys h
    cases accepted.symm.trans accepted'
    exact ⟨c, s, costs, taken⟩
  · rintro ⟨c, s, costs, taken⟩
    exact ⟨_, ofRequest_eq_ok_iff.2 ⟨q, _, _, accepted, positive,
      .buy buys c _ costs (Side.amount_eq_ok taken), rfl⟩⟩

/-- A product that does not strain the quote has a cost. -/
theorem exists_cost (price : Price) (places : 0 ≤ quote.precision)
    (eased : ¬quote.Strains (quantity.times price.value)) :
    ∃ c, cost quote quantity price = .ok c := by
  cases costs : cost quote quantity price with
  | ok c => exact ⟨c, rfl⟩
  | error e =>
    exact absurd ((cost_eq_error_iff places).1 ⟨e, costs, cost_error places costs⟩) eased

/-- **A cost is taken** just if the quote can represent it. -/
theorem cost_taken_iff (places : 0 ≤ quote.precision)
    (costs : cost quote quantity price = .ok c)
    (unsigned : (quantity.times price.value).isNegative = false) :
    (∃ s, quote.quantity (.figure (.number c)) = .ok s) ↔ quote.Represents c.magnitude := by
  obtain ⟨-, -, -, kept, expressible, -⟩ := cost_eq_ok places costs
  constructor
  · rintro ⟨s, taken⟩
    rw [← magnitude_of_cost places costs taken]
    exact (Side.carries_of_quantity taken).represents
  · intro represents
    rw [← value_of_not_negative (kept unsigned)] at represents
    obtain ⟨takes, -⟩ := Side.exact_of_sharp (Given.figure?_figure _) places
      (not_overreaches_of_cost places costs) (Side.not_blurs_of_expressible expressible)
    obtain ⟨s, -, taken⟩ := takes represents
    obtain ⟨s', taken, -⟩ := map_eq_ok.1 taken
    exact ⟨s', taken⟩

/-- **A cost is made and taken** just if the product does not strain the quote and the quote can
represent what is left of the fitted one. -/
theorem exists_taken_iff (places : 0 ≤ quote.precision)
    (unsigned : (quantity.times price.value).isNegative = false) :
    (∃ c s, cost quote quantity price = .ok c ∧ quote.quantity (.figure (.number c)) = .ok s) ↔
      ¬quote.Strains (quantity.times price.value) ∧
        ∃ r, (quantity.times price.value).fit = .ok r ∧
          quote.Represents (quote.cut r.magnitude) := by
  constructor
  · rintro ⟨c, s, costs, taken⟩
    obtain ⟨r, fitted, cuts, -, -, eased⟩ := cost_eq_ok places costs
    refine ⟨eased, r, fitted, ?_⟩
    rw [← cuts]
    exact (cost_taken_iff places costs unsigned).1 ⟨s, taken⟩
  · rintro ⟨eased, r, fitted, represents⟩
    obtain ⟨c, costs⟩ := exists_cost price places eased
    obtain ⟨r', fitted', cuts, -⟩ := cost_eq_ok places costs
    cases fitted.symm.trans fitted'
    rw [← cuts] at represents
    obtain ⟨s, taken⟩ := (cost_taken_iff places costs unsigned).2 represents
    exact ⟨c, s, costs, taken⟩

/-- **A buy is placed** just if its product does not strain the quote and the quote can represent
what is left of the fitted one.  At a quote of no more places than the encoding it is therefore
placed whenever the cost is affordable, unless fitting lifts the product. -/
theorem placed_iff {q : Decimal} (placed : market.Placed) (buys : request.direction = .buy)
    (positive : request.price.isPositive = true)
    (accepted : market.base.quantity (.figure (.number request.amount)) = .ok q) :
    ((∃ order, ofRequest market request = .ok order) ↔
        ¬market.quote.Strains (q.times request.price) ∧
          ∃ r, (q.times request.price).fit = .ok r ∧
            market.quote.Represents (market.quote.cut r.magnitude)) ∧
      (market.quote.precision ≤ encodingPlaces →
        market.quote.cut (q.value * request.price.value) ≤ maxEncoded / 10 ^ encodingPlaces →
        ¬market.quote.Lifts (q.times request.price) →
        ∃ order, ofRequest market request = .ok order) := by
  have unsigned := times_unsigned accepted positive
  have iff := (exists_ofRequest_iff buys positive accepted).trans
    (exists_taken_iff placed.quote unsigned)
  refine ⟨iff, fun few affordable level => iff.2 ?_⟩
  rw [← value_times, value_of_not_negative unsigned] at affordable
  have eased := Side.eased_of_cut_le placed.quote few affordable
  obtain ⟨c, costs⟩ := exists_cost ⟨request.price⟩ placed.quote eased
  obtain ⟨r, fitted, -⟩ := cost_eq_ok placed.quote costs
  exact ⟨eased, r, fitted, Side.represents_cut few
    ((Side.cut_fit_le placed.quote fitted eased level).trans affordable)⟩

/-- Three for a half each are bought, at a quote of eight places. -/
theorem placed_iff_half :
    ¬Side.Lifts ⟨.gas, 8⟩ (times ⟨false, 300000000, -8⟩ ⟨false, 5, -1⟩) ∧
      ¬Side.Strains ⟨.gas, 8⟩ (times ⟨false, 300000000, -8⟩ ⟨false, 5, -1⟩) ∧
      ∃ order, ofRequest (quotedWith 8) (buying ⟨false, 3, 0⟩ ⟨false, 5, -1⟩) = .ok order := by
  have level : ¬Side.Lifts ⟨.gas, 8⟩ (times ⟨false, 300000000, -8⟩ ⟨false, 5, -1⟩) :=
    Side.not_lifts_of_expressible (expressible_of_short (by decide) (by decide))
  have placed : (quotedWith 8).Placed := ⟨by decide, by decide⟩
  have buys : (buying ⟨false, 3, 0⟩ ⟨false, 5, -1⟩).direction = .buy := rfl
  have accepted : (quotedWith 8).base.quantity (.figure (.number ⟨false, 3, 0⟩)) =
      .ok ⟨false, 300000000, -8⟩ := by decide +kernel
  obtain ⟨iff, affords⟩ := placed_iff placed buys (by decide) accepted
  have made := affords (by decide) (((quotedWith 8).quote.cut_le _).trans
    (by norm_num [buying, value, magnitude, maxEncoded, encodingPlaces])) level
  exact ⟨level, (iff.1 made).1, made⟩

/-- A buy that is turned away although its amount is accepted and its cost would be affordable. -/
def TurnedAway (market : Market) (request : LimitRequest) (e : Failure) : Prop :=
  request.direction = .buy ∧ request.price.isPositive = true ∧
    (∃ q, market.base.quantity (.figure (.number request.amount)) = .ok q ∧
      market.quote.cut (q.value * request.price.value) ≤ maxEncoded / 10 ^ encodingPlaces) ∧
    ofRequest market request = .error e

/-- **Some affordable buys are turned away**: one whose product is lifted above what fits into the
encoding; one whose cost has ten digits after the point, at a quote of ten places; and one whose
cost has eleven digits before the point, at a quote of eighteen places. -/
theorem exists_turnedAway :
    TurnedAway (quotedWith 8) (buying ⟨false, 12, 0⟩ ⟨false, 1537228672809129301333333333, -17⟩)
        (.of (.amountTooLarge (.figure (.number ⟨false, 18446744073709551616, -8⟩)))) ∧
      TurnedAway (quotedWith 10) (buying ⟨false, 1, 0⟩ ⟨false, 123456789, -9⟩)
        (.of (.amountBelowEncoding (.figure (.number ⟨false, 1234567890, -10⟩)) 8)) ∧
      TurnedAway (quotedWith 18) (buying ⟨false, 10000000000, 0⟩ ⟨false, 1, 0⟩)
        (.ofSignal .invalidOperation) := by
  refine ⟨⟨rfl, by decide, ⟨⟨false, 1200000000, -8⟩, by decide +kernel, ?_⟩, by decide +kernel⟩,
    ⟨rfl, by decide, ⟨⟨false, 100000000, -8⟩, by decide +kernel, ?_⟩, by decide +kernel⟩,
    ⟨rfl, by decide, ⟨⟨false, 1000000000000000000, -8⟩, by decide +kernel, ?_⟩,
      by decide +kernel⟩⟩
  · rw [Side.cut_eq (k := 18446744073709551615)]
    all_goals norm_num [buying, quotedWith, value, magnitude, maxEncoded, encodingPlaces]
  · refine ((quotedWith 10).quote.cut_le _).trans ?_
    norm_num [buying, value, magnitude, maxEncoded, encodingPlaces]
  · refine ((quotedWith 18).quote.cut_le _).trans ?_
    norm_num [buying, value, magnitude, maxEncoded, encodingPlaces]

end LimitOrder

end SignedOrders
