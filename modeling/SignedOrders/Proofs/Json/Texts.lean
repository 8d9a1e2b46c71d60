import SignedOrders.Json.Printer
import SignedOrders.Json.Reader

/-!
# Texts in JSON are read back

A text is written in double quotes, with every character that is not kept as one or
two UTF-16 code units.  The reader looks for the closing quote and joins pairs of
units again.  This module proves that it finds exactly the text that was written and
stops right after it (`readText_escapes`), whatever follows and whichever characters
are kept, so that no two texts are written alike.
-/

namespace SignedOrders.Json

variable {charset : Charset}

/-- What the reader finds where a character was written: the character itself, or its UTF-16 code
units. -/
def units (charset : Charset) (c : Char) : List Nat :=
  if c.toNat < 0x10000 ∨ charset.keeps c then [c.toNat]
  else [0xd800 + (c.toNat - 0x10000) / 0x400, 0xdc00 + (c.toNat - 0x10000) % 0x400]

theorem hexValue?_digitChar : ∀ n < 16, Octets.hexValue? (Nat.digitChar n) = some n := by
  decide

/-- A code unit is read from its four digits. -/
theorem readPoints_unitEscape {n : Nat} (h : n < 0x10000) (s : List Char) :
    readPoints (unitEscape n ++ s) = (readPoints s).map fun p => (n :: p.1, p.2) := by
  have unit : codeUnit? (Nat.digitChar (n / 16 / 16 / 16 % 16)) (Nat.digitChar (n / 16 / 16 % 16))
      (Nat.digitChar (n / 16 % 16)) (Nat.digitChar (n % 16)) = some n := by
    simp only [codeUnit?, hexValue?_digitChar _ (Nat.mod_lt _ (by decide : 0 < 16)),
      Option.bind_eq_bind, Option.bind_some, Option.pure_def, Option.some.injEq]
    omega
  simp only [unitEscape, Text.hexDigits, List.nil_append, List.cons_append, readPoints, unit]

/-- A character that is escaped by a backslash and a letter or itself. -/
theorem readPoints_backslash {c : Char} (h : c ≠ 'u') (s : List Char) :
    readPoints ('\\' :: c :: s) = (readPoints s).map fun p =>
      ((if c = 'n' then 10 else if c = 't' then 9 else if c = 'r' then 13
        else if c = 'b' then 8 else if c = 'f' then 12 else c.toNat) :: p.1, p.2) := by
  rw [readPoints.eq_def]
  split <;> grind

/-- A character that stands for itself. -/
theorem readPoints_plain {c : Char} (hq : c ≠ '"') (hb : c ≠ '\\') (s : List Char) :
    readPoints (c :: s) = (readPoints s).map fun p => (c.toNat :: p.1, p.2) := by
  rw [readPoints.eq_def]
  split <;> simp_all

theorem toNat_lt (c : Char) : c.toNat < 0x110000 := by
  rcases c.valid with h | ⟨-, h⟩
  · exact Nat.lt_trans h (by decide)
  · exact h

/-- A character that is one unit is no half of a pair. -/
theorem not_surrogate (c : Char) : c.toNat < 0xd800 ∨ 0xdfff < c.toNat := by
  rcases c.valid with h | ⟨h, -⟩
  · exact .inl h
  · exact .inr h

/-- **A character is read back** as its code units, whatever its escape. -/
theorem readPoints_escaped (c : Char) (s : List Char) :
    readPoints (escaped charset c ++ s) =
      (readPoints s).map fun p => (units charset c ++ p.1, p.2) := by
  have single (h : c.toNat < 0x10000) : units charset c = [c.toNat] := by simp [units, h]
  unfold escaped
  -- one case for each escape, the character itself and the two halves of a pair
  split
  · next h =>
    rcases h with rfl | rfl
    · exact readPoints_backslash (by decide) s
    · exact readPoints_backslash (by decide) s
  split
  · next h => subst h; exact readPoints_backslash (by decide) s
  split
  · next h => subst h; exact readPoints_backslash (by decide) s
  split
  · next h => subst h; exact readPoints_backslash (by decide) s
  split
  · next h =>
    rw [single (by omega), h]
    exact readPoints_backslash (by decide) s
  split
  · next h =>
    rw [single (by omega), h]
    exact readPoints_backslash (by decide) s
  split
  · next hsyntax _ _ _ _ _ kept =>
    have kept : units charset c = [c.toNat] := by simp [units, kept]
    rw [kept]
    exact readPoints_plain (fun he => hsyntax (.inl he)) (fun he => hsyntax (.inr he)) s
  next lost =>
  split
  · next h => rw [single h]; exact readPoints_unitEscape h s
  · next h =>
    have bound := toNat_lt c
    rw [List.append_assoc, readPoints_unitEscape (by omega), readPoints_unitEscape (by omega)]
    simp [units, h, lost, Function.comp_def]

theorem joinPairs_units (c : Char) (l : List Nat) :
    joinPairs (units charset c ++ l) = c :: joinPairs l := by
  have same : Char.ofNat c.toNat = c := Char.ofNat_toNat c
  have bound := toNat_lt c
  have surrogate := not_surrogate c
  unfold units
  split
  · cases l with
    | nil => simp [joinPairs, same]
    | cons low rest =>
      rw [List.cons_append, List.nil_append, joinPairs, if_neg (by omega), same]
  · next h =>
    have whole : 0x10000 + (0xd800 + (c.toNat - 0x10000) / 0x400 - 0xd800) * 0x400 +
        (0xdc00 + (c.toNat - 0x10000) % 0x400 - 0xdc00) = c.toNat := by omega
    simp only [List.cons_append, List.nil_append, joinPairs]
    rw [if_pos (by omega), whole, same]

theorem readPoints_escapes (s rest : List Char) :
    readPoints (s.flatMap (escaped charset) ++ '"' :: rest) =
      some (s.flatMap (units charset), rest) := by
  induction s with
  | nil => rfl
  | cons c s ih =>
    rw [List.flatMap_cons, List.append_assoc, readPoints_escaped, ih]
    rfl

theorem joinPairs_flatMap_units (s : List Char) :
    joinPairs (s.flatMap (units charset)) = s := by
  induction s with
  | nil => rfl
  | cons c s ih => rw [List.flatMap_cons, joinPairs_units, ih]

/-- **A text is read back**, up to its own closing quote. -/
theorem readText_escapes (s rest : List Char) :
    readText (s.flatMap (escaped charset) ++ '"' :: rest) = some (s, rest) := by
  simp only [readText, readPoints_escapes, Option.map_some, joinPairs_flatMap_units]

end SignedOrders.Json
