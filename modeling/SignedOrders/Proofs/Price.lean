import SignedOrders.Order.Limit
import SignedOrders.Proofs.Decimal.Literal
import SignedOrders.Proofs.Decimal.Nearest
import SignedOrders.Proofs.Failure

/-!
# Which prices are written as they are

A price is kept as it was given, in however many digits, and the cost of an order is computed
from this number.  The payload carries its text, for which the price is normalized first, and
that fits it to twenty-eight digits.

So the text denotes the price itself just if decimals of twenty-eight digits express it
(`Price.faithful_iff`); then the text is also read as a price with the same text.  Otherwise
the text denotes the fitted number, or there is none.
-/

namespace SignedOrders

open Decimal

namespace Price

variable {given : Given} {price : Price} {text : String}

/-! ## Reading and writing prices -/

/-- A price is a positive number that was given, and is kept as it is. -/
theorem ofGiven_eq_ok_iff : ofGiven given = .ok price ↔
    given.figure? = some (.number price.value) ∧ price.value.isPositive = true := by
  rw [ofGiven, bind_eq_ok]
  constructor
  · rintro ⟨figure, read, h⟩
    rw [orFail_eq_ok] at read
    cases figure with
    | infinite => cases h
    | nan => cases h
    | number v =>
      dsimp only at h
      split at h
      · next positive =>
        cases h
        exact ⟨read, positive⟩
      · cases h
  · rintro ⟨read, positive⟩
    refine ⟨_, orFail_eq_ok.2 read, ?_⟩
    dsimp only
    rw [if_pos positive]
    rfl

theorem wireText_eq_ok : price.wireText = .ok text ↔
    ∃ u, price.value.normalize = .ok u ∧ text = String.ofList u.literal.chars := by
  rw [wireText, map_eq_ok]
  refine exists_congr fun u => ?_
  rw [ofArithmetic_eq_ok, toPlain, plainChars_eq, eq_comm (a := text)]

/-- The text of the price stands in what is posted for the order. -/
theorem wireText_of_posting {order : LimitOrder} {time index : ℤ} {affiliate : Option String}
    {v : LimitPosting} (h : order.posting time index affiliate = .ok v) :
    order.price.wireText = .ok v.payload.limitPrice.amount := by
  obtain ⟨cancelAt, -, h⟩ := bind_eq_ok.1 h
  obtain ⟨text, written, h⟩ := bind_eq_ok.1 h
  cases h
  exact written

/-! ## Faithful texts -/

/-- **The ideal for a price**: its text is a literal that denotes it, and is read as a price of
the same text. -/
def Faithful (price : Price) : Prop :=
  ∃ l : Literal, price.wireText = .ok (String.ofList l.chars) ∧ l.value = price.value.value ∧
    ∃ again : Price, ofGiven (.text (String.ofList l.chars)) = .ok again ∧
      again.wireText = .ok (String.ofList l.chars)

/-- The text of a price denotes the number fitted to twenty-eight digits. -/
theorem exists_literal_of_wireText (h : price.wireText = .ok text) :
    ∃ (l : Literal) (r : Decimal), text = String.ofList l.chars ∧ price.value.fit = .ok r ∧
      l.value = r.value := by
  obtain ⟨u, normalized, rfl⟩ := wireText_eq_ok.1 h
  obtain ⟨r, fitted, same, sign, -⟩ := normalize_eq_ok normalized
  refine ⟨u.literal, r, rfl, fitted, ?_⟩
  rw [value_literal, Decimal.value, Decimal.value, same, sign, fit_negative fitted]

theorem Faithful.expressible (h : price.Faithful) (positive : price.value.isPositive = true) :
    Expressible price.value.value ∧ price.value.value < 10 ^ (maxExponent + 1) := by
  obtain ⟨l, written, value, -⟩ := h
  obtain ⟨l', r, same, fitted, value'⟩ := exists_literal_of_wireText written
  have chars : l.chars = l'.chars := String.ofList_injective same
  have unsigned : r.isNegative = false := by
    obtain ⟨sign, -⟩ := isPositive_iff_sign.1 positive
    exact isNegative_of_pos ((fit_negative fitted).trans sign)
  rw [← value, Literal.value_eq_of_chars_eq chars, value', value_of_not_negative unsigned]
  exact ⟨expressible_of_fit fitted, magnitude_of_fit_lt fitted⟩

/-- **The text of an expressible price is read again**, as a price with the same reduced form. -/
theorem faithful_of_expressible (positive : price.value.isPositive = true)
    (h : Expressible price.value.value) (near : price.value.value < 10 ^ (maxExponent + 1)) :
    price.Faithful := by
  obtain ⟨unsigned, nonzero⟩ := isPositive_iff_sign.1 positive
  have value := value_of_not_negative (isNegative_of_pos unsigned)
  rw [value] at h near
  obtain ⟨u, normalized, reduced, same, sign⟩ := h.normalize nonzero near
  obtain ⟨-, -, -, -, low, -⟩ := normalize_eq_ok normalized
  have readable := literal_isReadable reduced.nonzero low (same.trans_lt near)
  -- what is read has the value of the price, and so its reduced form
  have sameAgain := u.literal_decimal_magnitude.trans same
  have signAgain := u.literal_decimal_negative.trans sign
  have nonzeroAgain : u.literal.decimal.coefficient ≠ 0 := by
    rwa [← magnitude_eq_zero_iff.ne, sameAgain, magnitude_eq_zero_iff.ne]
  obtain ⟨u', normalized', reduced', same', sign'⟩ :=
    (sameAgain ▸ h : Expressible _).normalize nonzeroAgain (sameAgain.trans_lt near)
  obtain rfl : u' = u := reduced'.unique reduced (sign'.trans (signAgain.trans sign.symm))
    (same'.trans (sameAgain.trans same.symm))
  refine ⟨u'.literal, wireText_eq_ok.2 ⟨u', normalized, rfl⟩, ?_, ⟨u'.literal.decimal⟩, ?_,
    wireText_eq_ok.2 ⟨u', normalized', rfl⟩⟩
  · rw [value_literal, Decimal.value, Decimal.value, same, sign]
  · rw [ofGiven_eq_ok_iff]
    exact ⟨u'.literal.ofText?_literal readable,
      isPositive_iff_sign.2 ⟨signAgain.trans unsigned, nonzeroAgain⟩⟩

/-- **When the text of a price is faithful**: just if decimals of twenty-eight digits express the
price.  The text stands in whatever is posted for an order at the price, and whatever the price,
denotes the number fitted to twenty-eight digits. -/
theorem faithful_iff (h : ofGiven given = .ok price) :
    given.figure? = some (.number price.value) ∧ 0 < price.value.value ∧
      (price.Faithful ↔
        Expressible price.value.value ∧ price.value.value < 10 ^ (maxExponent + 1)) ∧
      (∀ text, price.wireText = .ok text →
        ∃ (l : Literal) (r : Decimal), text = String.ofList l.chars ∧
          price.value.fit = .ok r ∧ l.value = r.value) ∧
      ∀ (order : LimitOrder) (time index : ℤ) (affiliate : Option String) (v : LimitPosting),
        order.price = price → order.posting time index affiliate = .ok v →
          price.wireText = .ok v.payload.limitPrice.amount := by
  obtain ⟨read, positive⟩ := ofGiven_eq_ok_iff.1 h
  refine ⟨read, isPositive_iff_value_pos.1 positive, ⟨fun faithful => ?_, fun ⟨short, near⟩ => ?_⟩,
    fun text written => exists_literal_of_wireText written, ?_⟩
  · exact faithful.expressible positive
  · exact faithful_of_expressible positive short near
  · rintro order time index affiliate v rfl posted
    exact wireText_of_posting posted

/-- A fortieth, given with a zero at its end, is written without it, and this text is
faithful. -/
theorem faithful_iff_fortieth :
    ofGiven (.text "0.0250") = .ok ⟨⟨false, 250, -4⟩⟩ ∧ Faithful ⟨⟨false, 250, -4⟩⟩ ∧
      wireText ⟨⟨false, 250, -4⟩⟩ = .ok "0.025" := by
  have given : ofGiven (.text "0.0250") = .ok ⟨⟨false, 250, -4⟩⟩ := by decide +kernel
  have text : wireText ⟨⟨false, 250, -4⟩⟩ = .ok "0.025" := by decide +kernel
  obtain ⟨-, -, faithful, -⟩ := faithful_iff given
  refine ⟨given, faithful.2 ⟨⟨250, -4, ?_, by decide, by decide⟩, ?_⟩, text⟩
  · norm_num [Decimal.value, magnitude]
  · have small : Decimal.value ⟨false, 250, -4⟩ < 1 := by norm_num [Decimal.value, magnitude]
    exact small.trans_le (one_le_zpow₀ (by norm_num) (by decide))

/-- **Some texts are not faithful**: a price with a one at its twenty-ninth place after the point
is written without it, as a literal that denotes another number. -/
theorem exists_unfaithful :
    ofGiven (.text "1.00000000000000000000000000001") =
        .ok ⟨⟨false, 100000000000000000000000000001, -29⟩⟩ ∧
      wireText ⟨⟨false, 100000000000000000000000000001, -29⟩⟩ = .ok "1" ∧
      ¬Faithful ⟨⟨false, 100000000000000000000000000001, -29⟩⟩ := by
  have written : wireText ⟨⟨false, 100000000000000000000000000001, -29⟩⟩ = .ok "1" := by
    decide +kernel
  refine ⟨by decide +kernel, written, ?_⟩
  rintro ⟨l, text, value, -⟩
  have one : l.chars = (literal ⟨false, 1, 0⟩).chars := by
    have same := written.symm.trans text
    rw [Except.ok.injEq] at same
    refine String.ofList_injective (same.symm.trans ?_)
    decide +kernel
  rw [Literal.value_eq_of_chars_eq one, value_literal] at value
  norm_num [Decimal.value, magnitude] at value

end Price

end SignedOrders
