import SignedOrders.Proofs.FillOrder.Attested

/-!
# Spellings of octets

The digits of a hexadecimal text may be of either case, and the mark `0x` may stand in front of
them.  All such spellings of the same octets are read alike (`ofMarkedHex?_of_spells`).
-/

namespace SignedOrders.Octets

/-! ## Case -/

/-- A letter that lowercase changes is one of twenty-six. -/
theorem toLower_cases (c : Char) : c.toLower = c ∨ ∃ n < 26, c = Char.ofNat (65 + n) := by
  by_cases upper : c.val ≥ 'A'.val ∧ c.val ≤ 'Z'.val
  · have low : 65 ≤ c.toNat := upper.1
    have high : c.toNat ≤ 90 := upper.2
    refine .inr ⟨c.toNat - 65, by omega, ?_⟩
    rw [Nat.add_sub_cancel' low, Char.ofNat_toNat]
  · exact .inl (dif_neg upper)

theorem hexValue?_toLower (c : Char) : hexValue? c.toLower = hexValue? c := by
  rcases toLower_cases c with same | ⟨n, hn, rfl⟩
  · rw [same]
  · exact (by decide : ∀ n < 26,
      hexValue? (Char.ofNat (65 + n)).toLower = hexValue? (Char.ofNat (65 + n))) n hn

theorem isHexBlank_toLower (c : Char) : isHexBlank c.toLower = isHexBlank c := by
  rcases toLower_cases c with same | ⟨n, hn, rfl⟩
  · rw [same]
  · exact (by decide : ∀ n < 26,
      isHexBlank (Char.ofNat (65 + n)).toLower = isHexBlank (Char.ofNat (65 + n))) n hn

/-- **Case does not count** in a hexadecimal text. -/
theorem ofHexChars?_map_toLower (s : List Char) :
    ofHexChars? (s.map Char.toLower) = ofHexChars? s := by
  fun_induction ofHexChars? s with
  | case1 => rfl
  | case2 c s blank ih =>
    rw [List.map_cons, ofHexChars?.eq_def]
    simp only [isHexBlank_toLower, blank, if_true, ih]
  | case3 c solid =>
    rw [List.map_cons, ofHexChars?.eq_def]
    simp only [isHexBlank_toLower, solid, Bool.false_eq_true, if_false, List.map_nil]
  | case4 c solid d rest ih =>
    rw [List.map_cons, ofHexChars?.eq_def]
    simp only [isHexBlank_toLower, solid, Bool.false_eq_true, if_false, List.map_cons,
      hexValue?_toLower, ih]

/-! ## Spellings -/

/-- `s` spells the octets: two digits for each, of either case, with or without the mark `0x`. -/
def Spells (s : String) (octets : Octets) : Prop :=
  ∃ digits : List Char, digits.map Char.toLower = hexChars octets ∧
    (s.toList = digits ∨ s.toList = '0' :: 'x' :: digits)

theorem exists_hexDigit {octets : Octets} {c : Char} (h : c ∈ hexChars octets) :
    ∃ n < 16, c = hexDigit n := by
  obtain ⟨octet, -, h⟩ := List.mem_flatMap.1 h
  have bound := octet.toNat_lt
  rcases List.mem_pair.1 h with rfl | rfl
  · exact ⟨_, by omega, rfl⟩
  · exact ⟨_, by omega, rfl⟩

theorem ne_x_of_mem_hexChars {octets : Octets} {c : Char} (h : c ∈ hexChars octets) :
    c ≠ 'x' := by
  obtain ⟨n, small, rfl⟩ := exists_hexDigit h
  exact (by decide : ∀ n < 16, hexDigit n ≠ 'x') n small

/-- Octets are spelled by their text. -/
theorem spells_toHex (octets : Octets) : Spells (toHex octets) octets := by
  have lower : ∀ c ∈ hexChars octets, c.toLower = id c := by
    intro c mem
    obtain ⟨n, small, rfl⟩ := exists_hexDigit mem
    exact (by decide : ∀ n < 16, (hexDigit n).toLower = hexDigit n) n small
  exact ⟨hexChars octets, (List.map_congr_left lower).trans (List.map_id _),
    .inl String.toList_ofList⟩

theorem dropHexMark_of_marked {s : String} {digits : List Char}
    (h : s.toList = '0' :: 'x' :: digits) : dropHexMark s = String.ofList digits := by
  simp only [dropHexMark, h]

theorem dropHexMark_of_digits {s : String} (h : ∀ c ∈ s.toList, c ≠ 'x') : dropHexMark s = s := by
  unfold dropHexMark
  split
  · next rest marked =>
    rw [marked] at h
    exact absurd rfl (h 'x' (by simp))
  · rfl

/-- **All spellings are read alike.** -/
theorem ofMarkedHex?_of_spells {s : String} {octets : Octets} (h : Spells s octets) :
    ofMarkedHex? s = some octets := by
  obtain ⟨digits, lower, spelled⟩ := h
  have read : ofHexChars? digits = some octets := by
    rw [← ofHexChars?_map_toLower, lower, ofHexChars?_hexChars]
  rcases spelled with plain | marked
  · have unmarked : ∀ c ∈ s.toList, c ≠ 'x' := by
      rintro c mem rfl
      rw [plain] at mem
      have written : 'x' ∈ hexChars octets := lower ▸ List.mem_map.2 ⟨'x', mem, by decide⟩
      exact ne_x_of_mem_hexChars written rfl
    rw [ofMarkedHex?, dropHexMark_of_digits unmarked, ofHex?, plain, read]
  · rw [ofMarkedHex?, dropHexMark_of_marked marked, ofHex?, String.toList_ofList, read]

end SignedOrders.Octets
