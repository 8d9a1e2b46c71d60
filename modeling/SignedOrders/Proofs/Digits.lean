import SignedOrders.Decimal.Printer
import SignedOrders.Decimal.Reader

/-!
# Digits are read back

Numbers are written in decimal digits by one function and read by another.  The
two are inverse, the digits of a number are digits, and the reader of digits stops
exactly where they end.
-/

namespace SignedOrders.Decimal

theorem isDigit_of_mem_digits {n : Nat} {c : Char} (h : c ∈ digits n) : c.isDigit = true :=
  Nat.isDigit_of_mem_toDigits (by decide) (by decide) h

theorem all_isDigit_digits (n : Nat) : (digits n).all Char.isDigit = true :=
  List.all_eq_true.2 fun _ h => isDigit_of_mem_digits h

theorem digits_ne_nil (n : Nat) : digits n ≠ [] := Nat.toDigits_ne_nil

theorem length_digits (n : Nat) : (digits n).length = width n := rfl

/-- **The digits of a number are read as the number.** -/
theorem digitsValue_digits (n : Nat) : Text.digitsValue (digits n) = n :=
  Nat.ofDigitChars_ten_toDigits

/-- Digits after others count the others by powers of ten. -/
theorem digitsValue_append (s t : List Char) :
    Text.digitsValue (s ++ t) = tenTo t.length * Text.digitsValue s + Text.digitsValue t := by
  calc Text.digitsValue (s ++ t)
      = Nat.ofDigitChars 10 t (Text.digitsValue s) := Nat.ofDigitChars_append (b := 10) 0
    _ = _ := Nat.ofDigitChars_eq_ofDigitChars_zero

/-- Zeros in front do not count. -/
theorem digitsValue_zeros_append (k : Nat) (s : List Char) :
    Text.digitsValue (List.replicate k '0' ++ s) = Text.digitsValue s := by
  have zeros : Text.digitsValue (List.replicate k '0') = 0 := by
    show Nat.ofDigitChars 10 (List.replicate k '0') 0 = 0
    rw [Nat.ofDigitChars_replicate_zero, Nat.mul_zero]
  rw [digitsValue_append, zeros, Nat.mul_zero, Nat.zero_add]

/-- What satisfies a condition, up to the first item that does not. -/
theorem takeWhile_dropWhile_append {p : α → Bool} {s rest : List α} (hs : ∀ a ∈ s, p a = true)
    (hrest : ∀ a ∈ rest.head?, p a = false) :
    (s ++ rest).takeWhile p = s ∧ (s ++ rest).dropWhile p = rest := by
  rw [List.takeWhile_append_of_pos hs, List.dropWhile_append_of_pos hs]
  cases rest with
  | nil => simp
  | cons a rest => simp [hrest a rfl]

/-- The reader of digits stops at the first character that is none. -/
theorem takeDigits_append {s rest : List Char} (hs : s.all Char.isDigit = true)
    (hrest : ∀ c ∈ rest.head?, c.isDigit = false) : takeDigits (s ++ rest) = (s, rest) := by
  obtain ⟨taken, dropped⟩ := takeWhile_dropWhile_append (List.all_eq_true.1 hs) hrest
  rw [takeDigits, taken, dropped]

end SignedOrders.Decimal
