import SignedOrders.Proofs.Digits
import SignedOrders.Proofs.Json.Sorted
import SignedOrders.Proofs.Json.Texts

/-!
# The text of a value is read back

The reader of JSON takes the text of a plain value for exactly that value and goes on
after it, whichever characters the text keeps.  So there is no ambiguity between the
tokens of one value, nor between a value and what follows it, and the canonical text,
which has the fields in order, determines the value up to their order
(`render_eq_iff`).

The reader spends one unit of fuel for each step, and two for each character are
enough.
-/

namespace SignedOrders.Json

variable {charset : Charset}

/-! ## The beginning of a text -/

/-- A character that cannot be skipped before a value. -/
def isSolid (c : Char) : Bool := !(c = ' ' || c = '\n' || c = '\t' || c = '\r')

theorem skipBlanks_cons {c : Char} (h : isSolid c = true) (s : List Char) :
    skipBlanks (c :: s) = c :: s := by
  rw [skipBlanks, List.dropWhile_cons, if_neg]
  simpa [isSolid] using h

/-- What follows a value does not go on with a number. -/
def EndsNumber (rest : List Char) : Prop := ∀ c ∈ rest.head?, isNumberChar c = false

theorem endsNumber_nil : EndsNumber [] := by
  intro c h
  cases h

theorem endsNumber_cons {c : Char} (h : isNumberChar c = false) (rest : List Char) :
    EndsNumber (c :: rest) := by
  intro d hd
  cases hd
  exact h

/-! ## Words and numbers -/

theorem isNumberChar_of_isDigit {c : Char} (h : c.isDigit = true) : isNumberChar c = true := by
  simp [isNumberChar, h]

/-- What a number starts with is no other character. -/
theorem ne_of_startsNumber {c d : Char} (hc : c = '-' ∨ c.isDigit = true)
    (hd : d.isDigit = false) (hminus : d ≠ '-') : c ≠ d := by
  rintro rfl
  rcases hc with hc | hc
  · exact hminus hc
  · rw [hd] at hc
    cases hc

theorem isSolid_of_startsNumber {c : Char} (hc : c = '-' ∨ c.isDigit = true) :
    isSolid c = true := by
  simp [isSolid, ne_of_startsNumber hc (d := ' ') (by decide) (by decide),
    ne_of_startsNumber hc (d := '\n') (by decide) (by decide),
    ne_of_startsNumber hc (d := '\t') (by decide) (by decide),
    ne_of_startsNumber hc (d := '\r') (by decide) (by decide)]

/-- The text of an integer: a digit or a minus sign, then digits. -/
theorem intChars_eq (n : Int) :
    ∃ c s, intChars n = c :: s ∧ (c = '-' ∨ c.isDigit = true) ∧ s.all Char.isDigit = true ∧
      (c = '-' → s ≠ []) := by
  have digits := Decimal.all_isDigit_digits n.natAbs
  have some_digit := Decimal.digits_ne_nil n.natAbs
  by_cases negative : n < 0
  · exact ⟨'-', _, by simp [intChars, Decimal.signText, negative], .inl rfl, digits,
      fun _ => some_digit⟩
  · cases h : Decimal.digits n.natAbs with
    | nil => exact absurd h some_digit
    | cons c s =>
      rw [h, List.all_cons, Bool.and_eq_true] at digits
      refine ⟨c, s, by simp [intChars, Decimal.signText, negative, h], .inr digits.1, digits.2, ?_⟩
      rintro rfl
      exact absurd digits.1 (by decide)

theorem number?_intChars (n : Int) : number? (intChars n) = some (.int n) := by
  have digits := Decimal.all_isDigit_digits n.natAbs
  have some_digit := Decimal.digits_ne_nil n.natAbs
  have value := Decimal.digitsValue_digits n.natAbs
  by_cases negative : n < 0
  · simp only [intChars, Decimal.signText, decide_eq_true negative, if_true, List.singleton_append,
      number?, Decimal.takeSign, digits, some_digit, value, if_false]
    congr 2
    omega
  · have sign : Decimal.takeSign (Decimal.digits n.natAbs) = (false, Decimal.digits n.natAbs) := by
      cases h : Decimal.digits n.natAbs with
      | nil => rfl
      | cons c s =>
        rw [h, List.all_cons, Bool.and_eq_true] at digits
        rw [Decimal.takeSign.eq_def]
        split
        · next he => cases he; exact absurd digits.1 (by decide)
        · next he => cases he; exact absurd digits.1 (by decide)
        · rfl
    simp only [intChars, Decimal.signText, decide_eq_false negative, Bool.false_eq_true, if_false,
      List.nil_append, number?, sign, digits, if_true, some_digit, value]
    congr 2
    omega

/-- No word starts like a number. -/
theorem words_find?_number {c : Char} {s : List Char} (hc : c = '-' ∨ c.isDigit = true)
    (hs : ∀ d ∈ s.head?, c = '-' → d.isDigit = true) :
    (words.find? fun word => word.1.isPrefixOf (c :: s)) = none := by
  have notLetter {d : Char} (h : d.isDigit = false) (hd : d ≠ '-') : (d == c) = false :=
    beq_eq_false_iff_ne.2 (ne_of_startsNumber hc h hd).symm
  -- the one word that starts like a number goes on with a letter
  have minus : "-Infinity".toList.isPrefixOf (c :: s) = false := by
    by_cases h : c = '-'
    · cases s with
      | nil => subst h; rfl
      | cons d s =>
        have notI : ('I' == d) = false := by
          rw [beq_eq_false_iff_ne]
          rintro rfl
          exact absurd (hs 'I' rfl h) (by decide)
        simp [List.isPrefixOf, notI]
    · simp [List.isPrefixOf, Ne.symm h]
  rw [List.find?_eq_none]
  intro word hword
  simp only [words, List.mem_cons, List.not_mem_nil, or_false] at hword
  rcases hword with rfl | rfl | rfl | rfl | rfl | rfl
  · simp [List.isPrefixOf, notLetter (d := 'n') (by decide) (by decide)]
  · simp [List.isPrefixOf, notLetter (d := 't') (by decide) (by decide)]
  · simp [List.isPrefixOf, notLetter (d := 'f') (by decide) (by decide)]
  · simp [List.isPrefixOf, notLetter (d := 'N') (by decide) (by decide)]
  · simp [List.isPrefixOf, notLetter (d := 'I') (by decide) (by decide)]
  · rw [Bool.not_eq_true]
    exact minus

theorem readScalar_intChars (n : Int) {rest : List Char} (hr : EndsNumber rest) :
    readScalar (intChars n ++ rest) = some (.int n, rest) := by
  obtain ⟨c, s, htext, hc, hs, hne⟩ := intChars_eq n
  have number : ∀ d ∈ intChars n, isNumberChar d = true := by
    rw [htext]
    intro d hd
    rcases List.mem_cons.1 hd with rfl | hd
    · rcases hc with rfl | hc
      · decide
      · exact isNumberChar_of_isDigit hc
    · exact isNumberChar_of_isDigit (List.all_eq_true.1 hs d hd)
  have word : (words.find? fun word => word.1.isPrefixOf (intChars n ++ rest)) = none := by
    rw [htext, List.cons_append]
    refine words_find?_number hc fun d hd hminus => ?_
    cases s with
    | nil => exact absurd rfl (hne hminus)
    | cons e s =>
      cases hd
      exact List.all_eq_true.1 hs d (by simp)
  obtain ⟨taken, dropped⟩ := Decimal.takeWhile_dropWhile_append number hr
  rw [readScalar, word]
  simp only [taken, dropped, number?_intChars, Option.map_some]

/-! ## Values -/

/-- A text in quotes is read as a text. -/
theorem readValue_textChars (t : String) (fuel : Nat) (rest : List Char) :
    readValue (fuel + 1) (textChars charset t ++ rest) = some (.str t, rest) := by
  rw [textChars, List.cons_append, List.append_assoc, List.singleton_append, readValue,
    skipBlanks_cons (by decide)]
  simp only [readText_escapes, Option.map_some, String.ofList_toList]

/-- Where neither a text nor an array nor an object starts, a word or a number does. -/
theorem readValue_scalar {c : Char} (hsolid : isSolid c = true) (hq : c ≠ '"') (hb : c ≠ '[')
    (ho : c ≠ '\x7b') (fuel : Nat) (s : List Char) :
    readValue (fuel + 1) (c :: s) = readScalar (c :: s) := by
  rw [readValue, skipBlanks_cons hsolid]
  split <;> simp_all

theorem readValue_intChars (n : Int) (fuel : Nat) {rest : List Char} (hr : EndsNumber rest) :
    readValue (fuel + 1) (intChars n ++ rest) = some (.int n, rest) := by
  obtain ⟨c, s, htext, hc, -, -⟩ := intChars_eq n
  have ne {d : Char} (hd : d.isDigit = false) (hminus : d ≠ '-') : c ≠ d :=
    ne_of_startsNumber hc hd hminus
  rw [← readScalar_intChars n hr, htext, List.cons_append]
  exact readValue_scalar (isSolid_of_startsNumber hc) (ne (by decide) (by decide))
    (ne (by decide) (by decide)) (ne (by decide) (by decide)) fuel _

/-- The text of a value starts with a character that is not skipped and closes nothing. -/
theorem chars_eq_cons (charset : Charset) {v : Json} (hv : Plain v) :
    ∃ c s, v.chars charset = c :: s ∧ isSolid c = true ∧ c ≠ ']' := by
  cases hv with
  | null => exact ⟨_, _, rfl, by decide, by decide⟩
  | bool b => cases b <;> exact ⟨_, _, rfl, by decide, by decide⟩
  | int n =>
    obtain ⟨c, s, htext, hc, -, -⟩ := intChars_eq n
    exact ⟨c, s, htext, isSolid_of_startsNumber hc,
      ne_of_startsNumber hc (by decide) (by decide)⟩
  | str t => exact ⟨_, _, rfl, by decide, by decide⟩
  | arr => exact ⟨_, _, chars_arr charset _, by decide, by decide⟩
  | obj => exact ⟨_, _, chars_obj charset _, by decide, by decide⟩

theorem commaSeparated_cons {piece : List Char} {rest : List (List Char)} (h : rest ≠ []) :
    commaSeparated (piece :: rest) = piece ++ ',' :: commaSeparated rest := by
  cases rest with
  | nil => exact absurd rfl h
  | cons => rfl

/-- Pieces in a row start with the first one. -/
theorem exists_commaSeparated_eq (piece : List Char) (rest : List (List Char)) :
    ∃ s, commaSeparated (piece :: rest) = piece ++ s := by
  cases rest with
  | nil => exact ⟨[], (List.append_nil piece).symm⟩
  | cons other rest => exact ⟨_, commaSeparated_cons (by simp)⟩

/-- The text of a value is read as the value, whatever follows. -/
def ReadBack (charset : Charset) (v : Json) : Prop :=
  ∀ fuel rest, 2 * (v.chars charset).length ≤ fuel + 1 → EndsNumber rest →
    readValue fuel (v.chars charset ++ rest) = some (v, rest)

/-! ## Arrays and objects -/

/-- An item before a comma is read, and then the others. -/
theorem readItems_comma {v : Json} (hv : ReadBack charset v) {fuel : Nat}
    (hfuel : 2 * (v.chars charset).length ≤ fuel + 1) (s : List Char) :
    readItems (fuel + 1) (v.chars charset ++ ',' :: s) =
      (readItems fuel s).map fun (items, rest) => (v :: items, rest) := by
  rw [readItems, hv fuel _ hfuel (endsNumber_cons (by decide) _)]
  simp only [skipBlanks_cons (show isSolid ',' = true by decide)]

/-- An item before the bracket is the last one. -/
theorem readItems_close {v : Json} (hv : ReadBack charset v) {fuel : Nat}
    (hfuel : 2 * (v.chars charset).length ≤ fuel + 1) (s : List Char) :
    readItems (fuel + 1) (v.chars charset ++ ']' :: s) = some ([v], s) := by
  rw [readItems, hv fuel _ hfuel (endsNumber_cons (by decide) _)]
  simp only [skipBlanks_cons (show isSolid ']' = true by decide)]

/-- The items of an array are read one by one. -/
theorem readItems_of_readBack {items : List Json} (hne : items ≠ [])
    (hplain : ∀ v ∈ items, Plain v) (hread : ∀ v ∈ items, ReadBack charset v) (fuel : Nat)
    (rest : List Char) (hfuel : 2 * (commaSeparated (items.map (chars charset))).length ≤ fuel) :
    readItems fuel (commaSeparated (items.map (chars charset)) ++ ']' :: rest) =
      some (items, rest) := by
  induction items generalizing fuel with
  | nil => exact absurd rfl hne
  | cons v items ih =>
    have value : ReadBack charset v := hread v (by simp)
    -- the unit of fuel for the item is paid by the item's first character
    have some_char : 0 < (v.chars charset).length := by
      obtain ⟨c, s, h, -, -⟩ := chars_eq_cons charset (hplain v (by simp))
      simp [h]
    cases items with
    | nil =>
      rw [List.map_singleton, commaSeparated] at hfuel ⊢
      obtain ⟨fuel, rfl⟩ : ∃ k, fuel = k + 1 := ⟨fuel - 1, by omega⟩
      rw [readItems_close value (by omega)]
    | cons w items =>
      rw [List.map_cons, commaSeparated_cons (by simp)] at hfuel ⊢
      rw [List.length_append, List.length_cons] at hfuel
      obtain ⟨fuel, rfl⟩ : ∃ k, fuel = k + 1 := ⟨fuel - 1, by omega⟩
      have tail := ih (by simp) (fun u hu => hplain u (by simp [hu]))
        (fun u hu => hread u (by simp [hu])) fuel (by omega)
      rw [List.append_assoc, List.cons_append, readItems_comma value (by omega), tail]
      rfl

/-- After a bracket that nothing closes at once, items are read. -/
theorem readValue_bracket {c : Char} (hsolid : isSolid c = true) (hclose : c ≠ ']') (fuel : Nat)
    (s : List Char) :
    readValue (fuel + 1) ('[' :: c :: s) =
      (readItems fuel (c :: s)).map fun (items, rest) => (.arr items, rest) := by
  rw [readValue, skipBlanks_cons (by decide)]
  simp only [skipBlanks_cons hsolid]
  split
  · next h => exact absurd (List.cons.inj h).1 hclose
  · rfl

/-- After a brace that nothing closes at once, fields are read. -/
theorem readValue_brace {c : Char} (hsolid : isSolid c = true) (hclose : c ≠ '\x7d') (fuel : Nat)
    (s : List Char) :
    readValue (fuel + 1) ('\x7b' :: c :: s) =
      (readFields fuel [] (c :: s)).map fun (fields, rest) => (.obj fields, rest) := by
  rw [readValue, skipBlanks_cons (by decide)]
  simp only [skipBlanks_cons hsolid]
  split
  · next h => exact absurd (List.cons.inj h).1 hclose
  · rfl

/-- A field with a new key goes to the end. -/
theorem Fields.set_of_notMem {fields : Fields} {key : String} (h : key ∉ fields.map Prod.fst)
    (v : Json) : Fields.set fields key v = fields ++ [(key, v)] := by
  have absent : (fields.any fun field => field.1 == key) = false := by
    rw [List.any_eq_false]
    intro field hf
    rw [beq_iff_eq]
    rintro rfl
    exact h (List.mem_map_of_mem hf)
  rw [Fields.set, absent, if_neg Bool.false_ne_true]

/-- A field is opened by its key in quotes and a colon. -/
theorem fieldText_append (key : String) (v : Json) (s : List Char) :
    fieldText charset key (v.chars charset) ++ s =
      '"' :: (key.toList.flatMap (escaped charset) ++ '"' :: (':' :: (v.chars charset ++ s))) := by
  simp [fieldText, textChars]

/-- A field before a comma is read, and then the others. -/
theorem readFields_comma {v : Json} (hv : ReadBack charset v) {fuel : Nat}
    (hfuel : 2 * (v.chars charset).length ≤ fuel + 1) {before : Fields} {key : String}
    (hnew : key ∉ before.map Prod.fst) (s : List Char) :
    readFields (fuel + 1) before (fieldText charset key (v.chars charset) ++ ',' :: s) =
      readFields fuel (before ++ [(key, v)]) s := by
  rw [fieldText_append, readFields, skipBlanks_cons (by decide)]
  simp only [readText_escapes, skipBlanks_cons (show isSolid ':' = true by decide),
    hv fuel _ hfuel (endsNumber_cons (show isNumberChar ',' = false by decide) _),
    skipBlanks_cons (show isSolid ',' = true by decide), String.ofList_toList,
    Fields.set_of_notMem hnew]

/-- A field before the brace is the last one. -/
theorem readFields_close {v : Json} (hv : ReadBack charset v) {fuel : Nat}
    (hfuel : 2 * (v.chars charset).length ≤ fuel + 1) {before : Fields} {key : String}
    (hnew : key ∉ before.map Prod.fst) (s : List Char) :
    readFields (fuel + 1) before (fieldText charset key (v.chars charset) ++ '\x7d' :: s) =
      some (before ++ [(key, v)], s) := by
  rw [fieldText_append, readFields, skipBlanks_cons (by decide)]
  simp only [readText_escapes, skipBlanks_cons (show isSolid ':' = true by decide),
    hv fuel _ hfuel (endsNumber_cons (show isNumberChar '\x7d' = false by decide) _),
    skipBlanks_cons (show isSolid '\x7d' = true by decide), String.ofList_toList,
    Fields.set_of_notMem hnew]

/-- The fields of an object are read one by one, after those that were read before. -/
theorem readFields_of_readBack {fields : Fields} (hne : fields ≠ [])
    (hread : ∀ field ∈ fields, ReadBack charset field.2) (before : Fields)
    (hdistinct : ((before ++ fields).map Prod.fst).Nodup) (fuel : Nat) (rest : List Char)
    (hfuel : 2 * (commaSeparated (fields.map fun field =>
      fieldText charset field.1 (field.2.chars charset))).length ≤ fuel) :
    readFields fuel before (commaSeparated (fields.map fun field =>
        fieldText charset field.1 (field.2.chars charset)) ++ '\x7d' :: rest) =
      some (before ++ fields, rest) := by
  induction fields generalizing before fuel with
  | nil => exact absurd rfl hne
  | cons field fields ih =>
    obtain ⟨key, v⟩ := field
    have value : ReadBack charset v := hread (key, v) (by simp)
    have new : key ∉ before.map Prod.fst := by
      intro h
      rw [List.map_append] at hdistinct
      exact (List.nodup_append.1 hdistinct).2.2 key h key (by simp) rfl
    have length : 2 + (v.chars charset).length ≤
        (fieldText charset key (v.chars charset)).length := by
      simp only [fieldText, textChars, List.length_append, List.length_cons]
      omega
    cases fields with
    | nil =>
      rw [List.map_singleton, commaSeparated] at hfuel ⊢
      dsimp only at hfuel
      obtain ⟨fuel, rfl⟩ : ∃ k, fuel = k + 1 := ⟨fuel - 1, by omega⟩
      rw [readFields_close value (by omega) new]
    | cons other fields =>
      rw [List.map_cons, commaSeparated_cons (by simp)] at hfuel ⊢
      rw [List.length_append, List.length_cons] at hfuel
      dsimp only at hfuel
      obtain ⟨fuel, rfl⟩ : ∃ k, fuel = k + 1 := ⟨fuel - 1, by omega⟩
      have tail := ih (by simp) (fun f hf => hread f (by simp [hf])) (before ++ [(key, v)])
        (by simpa using hdistinct) fuel (by omega)
      rw [List.append_assoc, List.cons_append, readFields_comma value (by omega) new, tail,
        List.append_assoc]
      rfl

/-- **The text of a plain value is read as the value**. -/
theorem Plain.readBack {v : Json} (hv : Plain v) : ReadBack charset v := by
  induction hv with
  | null =>
    intro fuel rest hfuel _
    obtain ⟨fuel, rfl⟩ : ∃ k, fuel = k + 1 := ⟨fuel - 1, by simp [chars] at hfuel; omega⟩
    exact readValue_scalar (by decide) (by decide) (by decide) (by decide) fuel _
  | bool b =>
    intro fuel rest hfuel _
    obtain ⟨fuel, rfl⟩ : ∃ k, fuel = k + 1 :=
      ⟨fuel - 1, by cases b <;> simp [chars] at hfuel <;> omega⟩
    cases b <;> exact readValue_scalar (by decide) (by decide) (by decide) (by decide) fuel _
  | int n =>
    intro fuel rest hfuel hrest
    obtain ⟨fuel, rfl⟩ : ∃ k, fuel = k + 1 := by
      obtain ⟨c, s, h, -⟩ := intChars_eq n
      rw [chars, h, List.length_cons] at hfuel
      exact ⟨fuel - 1, by omega⟩
    exact readValue_intChars n fuel hrest
  | str t =>
    intro fuel rest hfuel _
    obtain ⟨fuel, rfl⟩ : ∃ k, fuel = k + 1 := ⟨fuel - 1, by simp [chars, textChars] at hfuel; omega⟩
    exact readValue_textChars t fuel rest
  | @arr items h ih =>
    intro fuel rest hfuel _
    rw [chars_arr, List.length_cons, List.length_append, List.length_singleton] at hfuel
    obtain ⟨fuel, rfl⟩ : ∃ k, fuel = k + 1 := ⟨fuel - 1, by omega⟩
    rw [chars_arr, List.cons_append, List.append_assoc, List.singleton_append]
    cases items with
    | nil => rfl
    | cons v items =>
      have read := readItems_of_readBack (by simp) h ih fuel rest (by omega)
      obtain ⟨c, s, hfirst, hsolid, hclose⟩ := chars_eq_cons charset (h v (by simp))
      obtain ⟨s', hpieces⟩ :=
        exists_commaSeparated_eq (v.chars charset) (items.map (chars charset))
      rw [List.map_cons, hpieces, hfirst, List.cons_append, List.cons_append] at read ⊢
      rw [readValue_bracket hsolid hclose, read, Option.map_some]
  | @obj fields distinct h ih =>
    intro fuel rest hfuel _
    rw [chars_obj, List.length_cons, List.length_append, List.length_singleton] at hfuel
    obtain ⟨fuel, rfl⟩ : ∃ k, fuel = k + 1 := ⟨fuel - 1, by omega⟩
    rw [chars_obj, List.cons_append, List.append_assoc, List.singleton_append]
    cases fields with
    | nil => rfl
    | cons field others =>
      have read := readFields_of_readBack (by simp) ih [] distinct fuel rest (by omega)
      obtain ⟨s', hpieces⟩ := exists_commaSeparated_eq
        (fieldText charset field.1 (field.2.chars charset))
        (others.map fun field => fieldText charset field.1 (field.2.chars charset))
      rw [List.map_cons, hpieces, fieldText, textChars, List.cons_append, List.cons_append,
        List.cons_append] at read ⊢
      rw [readValue_brace (by decide) (by decide), read, Option.map_some, List.nil_append]

/-! ## Whole texts -/

/-- **The text of a plain value reads as the value**, whichever characters it keeps. -/
theorem readChars?_chars {v : Json} (hv : Plain v) (charset : Charset) :
    readChars? (v.chars charset) = some v := by
  have read : readValue (2 * (v.chars charset).length + 2) (v.chars charset ++ []) =
      some (v, []) := hv.readBack _ [] (by omega) endsNumber_nil
  rw [List.append_nil] at read
  rw [readChars?, read]
  rfl

/-- **The canonical text of a plain value reads as its sorted form.** -/
theorem read?_render {v : Json} (hv : Plain v) : read? v.render = some v.sorted := by
  rw [read?, render, String.toList_ofList, readChars?_chars hv.sorted]

/-- **The text of a value tells it up to the order of fields**, and no more. -/
theorem render_eq_iff {v w : Json} (hv : Plain v) (hw : Plain w) :
    v.render = w.render ↔ v.sorted = w.sorted := by
  constructor
  · intro h
    have read := read?_render hv
    rw [h, read?_render hw] at read
    exact (Option.some.inj read).symm
  · intro h
    rw [render, render, h]

end SignedOrders.Json
