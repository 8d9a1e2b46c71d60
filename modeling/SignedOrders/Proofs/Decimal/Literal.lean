import SignedOrders.Decimal.Printer
import SignedOrders.Decimal.Reader
import SignedOrders.Proofs.Decimal.Value
import SignedOrders.Proofs.Digits

/-!
# Decimal literals

A **literal** is a number written with a sign, digits, and perhaps a point and more
digits, without a power of ten.  Decimals in positional notation are literals
(`plainChars_eq`) that denote the value of the decimal (`value_literal`), and every literal
is read as the decimal with its digits and places (`ofText?_literal`).
-/

namespace SignedOrders

/-- A number as it is written without a power of ten. -/
structure Literal where
  negative : Bool
  whole : List Char
  fraction : List Char
  whole_ne_nil : whole ≠ []
  whole_digits : whole.all Char.isDigit = true
  fraction_digits : fraction.all Char.isDigit = true

namespace Literal

/-- The text of the literal. -/
def chars (l : Literal) : List Char :=
  Decimal.signText l.negative ++
    (l.whole ++ if l.fraction = [] then [] else '.' :: l.fraction)

/-- The decimal with the digits and the places of the literal. -/
def decimal (l : Literal) : Decimal :=
  ⟨l.negative, Text.digitsValue (l.whole ++ l.fraction), -l.fraction.length⟩

/-- The number that the literal denotes: its digits divided by a power of ten for its
places. -/
def value (l : Literal) : ℚ :=
  (if l.negative then -1 else 1) * Text.digitsValue (l.whole ++ l.fraction) /
    10 ^ l.fraction.length

theorem value_eq (l : Literal) : l.value = l.decimal.value := by
  have places : (10 : ℚ) ^ (-l.fraction.length : ℤ) = (10 ^ l.fraction.length)⁻¹ := by
    rw [zpow_neg, zpow_natCast]
  unfold value Decimal.value Decimal.magnitude decimal
  dsimp only
  rw [places, div_eq_mul_inv]
  cases l.negative <;> simp

/-! ## Reading -/

theorem exists_digitChar {c : Char} (h : c.isDigit = true) : ∃ n < 10, c = Nat.digitChar n := by
  have digitChar : ∀ n < 10, Char.ofNat (48 + n) = Nat.digitChar n := by decide
  have range : 48 ≤ c.toNat ∧ c.toNat ≤ 57 := by
    simpa [Char.isDigit, UInt32.le_iff_toNat_le] using h
  refine ⟨c.toNat - 48, by omega, ?_⟩
  rw [← digitChar _ (by omega), Nat.add_sub_cancel' range.1, Char.ofNat_toNat]

/-- A character that stands for itself when a number is read. -/
def IsPlain (c : Char) : Prop :=
  Text.isBlank c = false ∧ c ≠ '_' ∧ Text.asciiDigit c = c

theorem isPlain_digit {c : Char} (h : c.isDigit = true) : IsPlain c := by
  have digits : ∀ n < 10, Text.isBlank (Nat.digitChar n) = false ∧ Nat.digitChar n ≠ '_' ∧
      Text.asciiDigit (Nat.digitChar n) = Nat.digitChar n := by decide
  obtain ⟨n, hn, rfl⟩ := exists_digitChar h
  exact digits n hn

theorem isPlain_of_mem_chars (l : Literal) : ∀ c ∈ l.chars, IsPlain c := by
  intro c hc
  rw [chars, List.mem_append, List.mem_append] at hc
  rcases hc with sign | whole | point
  · have minus : c = '-' := by
      cases hn : l.negative with
      | true => simpa [Decimal.signText, hn] using sign
      | false => simp [Decimal.signText, hn] at sign
    rw [minus]
    exact ⟨by decide, by decide, by decide⟩
  · exact isPlain_digit (List.all_eq_true.1 l.whole_digits c whole)
  · split at point
    · cases point
    · rcases List.mem_cons.1 point with rfl | fraction
      · exact ⟨by decide, by decide, by decide⟩
      · exact isPlain_digit (List.all_eq_true.1 l.fraction_digits c fraction)

theorem trim_eq {s : List Char} (h : ∀ c ∈ s, Text.isBlank c = false) : Text.trim s = s := by
  have kept {t : List Char} (ht : ∀ c ∈ t, Text.isBlank c = false) :
      t.dropWhile Text.isBlank = t := by
    cases t with
    | nil => rfl
    | cons c t => rw [List.dropWhile_cons, ht c (by simp), if_neg Bool.false_ne_true]
  rw [Text.trim, Text.trimBy, kept h, kept fun c hc => h c (List.mem_reverse.1 hc),
    List.reverse_reverse]

theorem plainChars_chars (l : Literal) : Figure.plainChars l.chars = l.chars := by
  have plain := l.isPlain_of_mem_chars
  rw [Figure.plainChars, trim_eq fun c hc => (plain c hc).1,
    List.filter_eq_self.2 fun c hc => by simpa using (plain c hc).2.1]
  exact (List.map_congr_left fun c hc => (plain c hc).2.2).trans (List.map_id _)

/-- What is written after the sign. -/
def unsignedChars (l : Literal) : List Char :=
  l.whole ++ if l.fraction = [] then [] else '.' :: l.fraction

theorem exists_unsignedChars_eq (l : Literal) :
    ∃ n < 10, ∃ s, l.unsignedChars = Nat.digitChar n :: s := by
  rw [unsignedChars]
  cases hwhole : l.whole with
  | nil => exact absurd hwhole l.whole_ne_nil
  | cons c s =>
    have digit := List.all_eq_true.1 l.whole_digits c (by rw [hwhole]; exact List.mem_cons_self ..)
    obtain ⟨n, hn, rfl⟩ := exists_digitChar digit
    exact ⟨n, hn, _, rfl⟩

theorem takeSign_chars (l : Literal) :
    Decimal.takeSign l.chars = (l.negative, l.unsignedChars) := by
  obtain ⟨n, hn, s, hs⟩ := l.exists_unsignedChars_eq
  have noSign : ∀ n < 10, Nat.digitChar n ≠ '-' ∧ Nat.digitChar n ≠ '+' := by decide
  rw [chars, ← unsignedChars]
  cases l.negative with
  | true => rfl
  | false =>
    rw [hs, Decimal.takeSign.eq_def]
    split
    · next h => exact absurd (List.cons.inj h).1 (noSign n hn).1
    · next h => exact absurd (List.cons.inj h).1 (noSign n hn).2
    · rfl

theorem decimal_unsigned? (l : Literal) :
    Decimal.unsigned? l.negative l.unsignedChars = some l.decimal := by
  have whole : Decimal.takeDigits l.unsignedChars =
      (l.whole, if l.fraction = [] then [] else '.' :: l.fraction) := by
    refine Decimal.takeDigits_append l.whole_digits fun c hc => ?_
    split at hc
    · cases hc
    · cases hc
      decide
  have fraction : Decimal.takeDigits l.fraction = (l.fraction, []) := by
    have ends : ∀ c ∈ ([] : List Char).head?, c.isDigit = false := by simp
    have taken := Decimal.takeDigits_append l.fraction_digits ends
    rwa [List.append_nil] at taken
  rw [Decimal.unsigned?, whole]
  by_cases none : l.fraction = []
  · simp [none, l.whole_ne_nil, Decimal.exponentPart?, decimal]
  · simp [none, l.whole_ne_nil, fraction, Decimal.exponentPart?, decimal]

/-- **A literal is read as the decimal with its digits and places.** -/
theorem ofText?_literal (l : Literal) (h : l.decimal.isReadable = true) :
    Figure.ofText? (String.ofList l.chars) = some (.number l.decimal) := by
  obtain ⟨n, hn, s, hs⟩ := l.exists_unsignedChars_eq
  have letters : ∀ n < 10, (Nat.digitChar n).toLower ≠ 'i' ∧ (Nat.digitChar n).toLower ≠ 'n' ∧
      (Nat.digitChar n).toLower ≠ 's' := by decide
  obtain ⟨notI, notN, notS⟩ := letters n hn
  have number := l.decimal_unsigned?
  rw [Figure.ofText?, String.toList_ofList, plainChars_chars, takeSign_chars]
  dsimp only
  rw [hs] at number ⊢
  simp [Figure.unsigned?, Figure.dropWord?, notI, notN, notS, number, h]

/-- A text is that of at most one number. -/
theorem value_eq_of_chars_eq {l l' : Literal} (h : l.chars = l'.chars) :
    l.value = l'.value := by
  have parts := l.takeSign_chars
  rw [h, l'.takeSign_chars, Prod.mk.injEq] at parts
  obtain ⟨sign, digits⟩ := parts
  have number := l.decimal_unsigned?
  rw [← sign, ← digits, l'.decimal_unsigned?, Option.some.injEq] at number
  rw [l.value_eq, l'.value_eq, number]

end Literal

/-! ## Writing -/

namespace Decimal

/-- The digits of `c`, with zeros before them so that some stand before the point. -/
def padded (c places : ℕ) : List Char := List.replicate (places + 1 - width c) '0' ++ digits c

theorem padded_digits (c places : ℕ) : (padded c places).all Char.isDigit = true := by
  rw [padded, List.all_append, all_isDigit_digits, Bool.and_true, List.all_eq_true]
  intro d hd
  rw [List.eq_of_mem_replicate hd]
  decide

theorem lt_length_padded (c places : ℕ) : places < (padded c places).length := by
  rw [padded, List.length_append, List.length_replicate, length_digits]
  omega

theorem padded_zero (c : ℕ) : padded c 0 = digits c := by
  have pos := width_pos c
  rw [padded, show 0 + 1 - width c = 0 by omega]
  rfl

/-- The literal with the digits of `c`, so many of them after the point. -/
def pointedLiteral (negative : Bool) (c places : ℕ) : Literal where
  negative
  whole := (padded c places).take ((padded c places).length - places)
  fraction := (padded c places).drop ((padded c places).length - places)
  whole_ne_nil := by
    have := lt_length_padded c places
    rw [← List.length_pos_iff, List.length_take]
    omega
  whole_digits := List.all_eq_true.2 fun d hd =>
    List.all_eq_true.1 (padded_digits c places) d (List.mem_of_mem_take hd)
  fraction_digits := List.all_eq_true.2 fun d hd =>
    List.all_eq_true.1 (padded_digits c places) d (List.mem_of_mem_drop hd)

theorem pointedLiteral_decimal (negative : Bool) (c places : ℕ) :
    (pointedLiteral negative c places).decimal = ⟨negative, c, -places⟩ := by
  have length := lt_length_padded c places
  have count : (padded c places).length - ((padded c places).length - places) = places := by omega
  have number : Text.digitsValue (padded c places) = c := by
    rw [padded, digitsValue_zeros_append, digitsValue_digits]
  simp only [Literal.decimal, pointedLiteral, List.take_append_drop, List.length_drop, count,
    number]

theorem pointed_eq (negative : Bool) (c places : ℕ) :
    (pointedLiteral negative c places).chars = signText negative ++ pointed c places := by
  have length := lt_length_padded c places
  rw [Literal.chars]
  congr 1
  by_cases none : places = 0
  · simp [pointedLiteral, pointed, none, padded_zero]
  · have some_place : (padded c places).drop ((padded c places).length - places) ≠ [] := by
      rw [← List.length_pos_iff, List.length_drop]
      omega
    rw [pointed, if_neg none]
    exact congrArg _ (if_neg some_place)

/-- The literal of a decimal. -/
def literal (d : Decimal) : Literal :=
  if d.exponent ≤ 0 then pointedLiteral d.negative d.coefficient (-d.exponent).toNat
  else pointedLiteral d.negative (d.coefficient * tenTo d.exponent.toNat) 0

/-- Digits of a multiple of a power of ten end in zeros. -/
theorem digits_mul_tenTo {c : ℕ} (h : c ≠ 0) (k : ℕ) :
    digits (c * tenTo k) = digits c ++ List.replicate k '0' := by
  induction k with
  | zero => rw [tenTo_zero, Nat.mul_one, List.replicate_zero, List.append_nil]
  | succ k ih =>
    have pos : 0 < c * tenTo k := Nat.mul_pos (Nat.pos_of_ne_zero h) (tenTo_pos k)
    have next := Nat.toDigits_append_toDigits (b := 10) (d := 0) (by decide) pos (by decide)
    rw [tenTo_succ, ← Nat.mul_assoc, List.replicate_succ', ← List.append_assoc, ← ih, Nat.mul_comm]
    exact next.symm

/-- **A decimal in positional notation is a literal.** -/
theorem plainChars_eq (d : Decimal) : d.plainChars = d.literal.chars := by
  unfold plainChars literal
  split
  · rw [pointed_eq]
  · rw [pointed_eq, pointed, if_pos rfl]
    split
    · next zero =>
      rw [zero, Nat.zero_mul]
      rfl
    · next nonzero => rw [digits_mul_tenTo nonzero]

/-- The literal of a decimal is read as a decimal of the same sign and magnitude; it is the
same decimal, if that has no digits missing before the point. -/
theorem literal_decimal (d : Decimal) :
    (d.exponent ≤ 0 ∧ d.literal.decimal = d) ∨
      (0 < d.exponent ∧ d.literal.decimal =
        ⟨d.negative, d.coefficient * tenTo d.exponent.toNat, 0⟩) := by
  unfold literal
  split
  · next low =>
    refine .inl ⟨low, ?_⟩
    rw [pointedLiteral_decimal, Int.toNat_of_nonneg (by omega), neg_neg]
  · next high => exact .inr ⟨not_le.1 high, pointedLiteral_decimal ..⟩

theorem literal_decimal_negative (d : Decimal) : d.literal.decimal.negative = d.negative := by
  rcases d.literal_decimal with ⟨-, h⟩ | ⟨-, h⟩ <;> rw [h]

theorem literal_decimal_magnitude (d : Decimal) :
    d.literal.decimal.magnitude = d.magnitude := by
  rcases d.literal_decimal with ⟨-, h⟩ | ⟨high, h⟩
  · rw [h]
  · have whole := mul_zpow_eq high.le d.coefficient
    rw [sub_zero] at whole
    rw [h, magnitude, magnitude, whole]

/-- **The literal of a decimal denotes its value.** -/
theorem value_literal (d : Decimal) : d.literal.value = d.value := by
  rw [Literal.value_eq, value, value, literal_decimal_negative, literal_decimal_magnitude]

/-- The literal of a number in the range of arithmetic can be read. -/
theorem literal_isReadable {u : Decimal} (nonzero : u.coefficient ≠ 0)
    (low : tiniestExponent ≤ u.exponent) (near : u.magnitude < 10 ^ (maxExponent + 1)) :
    u.literal.decimal.isReadable = true := by
  have range : tiniestExponent = -1000026 ∧ maxExponent = 999999 := ⟨rfl, rfl⟩
  have same := u.literal_decimal_magnitude
  have some_digit : u.literal.decimal.coefficient ≠ 0 := by
    rwa [← magnitude_eq_zero_iff.ne, same, magnitude_eq_zero_iff.ne]
  have first := adjusted_lt some_digit (same.trans_lt near)
  have last : tiniestExponent ≤ u.literal.decimal.exponent := by
    rcases u.literal_decimal with ⟨-, h⟩ | ⟨-, h⟩
    · rwa [h]
    · rw [h]
      exact show tiniestExponent ≤ 0 by decide
  rw [isReadable, Bool.and_eq_true, decide_eq_true_eq, decide_eq_true_eq]
  omega

end Decimal

end SignedOrders
