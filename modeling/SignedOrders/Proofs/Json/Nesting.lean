import Mathlib.Tactic.SplitIfs
import SignedOrders.Proofs.Json.Reading

/-!
# Where the text of an object ends

A canonical text is joined from the name of an operation, a comma and the text of an object, and
the name may be anything, JSON texts with commas included.  Still the text can be taken apart in
one way only: no comma inside the text of an object is followed by the text of a value that
ends where the object ends (`Plain.chars_obj_ne_append`, `Plain.joined_inj`).

This is seen by a reader that looks at brackets and quotes alone.  It knows how many brackets are
open and whether it stands in a quoted text, and it is lost where no value can begin or go on.
The text of a value leads it, outside of quoted texts, back to as many open brackets as there
were.  In a quoted text it takes quoted for unquoted, so that the text of a value leaves it in
a quoted text, or lost at a backslash or a bracket too many.
-/

namespace SignedOrders.Json

variable {charset : Charset}

/-- Where a reader stands that looks at brackets and quotes alone. -/
inductive Place where
  | outside (depth : Nat)
  | inside (depth : Nat)
  | escaping (depth : Nat)
  | lost

namespace Place

/-- A character that opens an array or an object. -/
def opens (c : Char) : Bool := c = '[' || c = '\x7b'

/-- A character that closes an array or an object. -/
def closes (c : Char) : Bool := c = ']' || c = '\x7d'

/-- A character that neither quotes nor opens or closes anything. -/
def neutral (c : Char) : Bool := !(c = '"' || c = '\\' || opens c || closes c)

/-- Where the reader stands after one more character. -/
def next : Place → Char → Place
  | outside 0, c => if opens c then outside 1 else lost
  | outside (depth + 1), c =>
    if c = '"' then inside (depth + 1)
    else if c = '\\' then lost
    else if opens c then outside (depth + 2)
    else if closes c then outside depth
    else outside (depth + 1)
  | inside depth, c =>
    if c = '"' then outside depth else if c = '\\' then escaping depth else inside depth
  | escaping depth, _ => inside depth
  | lost, _ => lost

/-- Where the reader stands after a text. -/
def after (place : Place) (text : List Char) : Place := text.foldl next place

/-- The reader takes what follows for quoted, or is lost. -/
def Quoted : Place → Prop
  | inside _ | lost => True
  | outside _ | escaping _ => False

/-- The reader takes what follows for unquoted, or is lost. -/
def Unquoted : Place → Prop
  | outside _ | lost => True
  | inside _ | escaping _ => False

variable {place : Place} {c : Char}

theorem after_append (text text' : List Char) :
    place.after (text ++ text') = (place.after text).after text' := List.foldl_append

theorem after_cons (text : List Char) : place.after (c :: text) = (place.next c).after text := rfl

theorem next_inside {depth : Nat} (quote : c ≠ '"') (backslash : c ≠ '\\') :
    (inside depth).next c = inside depth := by
  rw [next, if_neg quote, if_neg backslash]

theorem Quoted.next (h : place.Quoted) (quote : c ≠ '"') (backslash : c ≠ '\\') :
    (place.next c).Quoted := by
  cases place with
  | inside depth => rw [next_inside quote backslash]; trivial
  | lost => trivial
  | _ => cases h

theorem Quoted.next_quote (h : place.Quoted) : (place.next '"').Unquoted := by
  cases place with
  | inside => trivial
  | lost => trivial
  | _ => cases h

theorem Unquoted.next_quote (h : place.Unquoted) : (place.next '"').Quoted := by
  cases place with
  | outside depth => cases depth <;> trivial
  | lost => trivial
  | _ => cases h

theorem Unquoted.next (h : place.Unquoted) (quote : c ≠ '"') : (place.next c).Unquoted := by
  cases place with
  | outside depth => cases depth <;> grind [Place.next, Unquoted]
  | lost => trivial
  | _ => cases h

theorem after_lost (text : List Char) : lost.after text = lost := by
  induction text with
  | nil => rfl
  | cons _ _ ih => exact ih

/-- Outside of quoted texts there are no backslashes. -/
theorem Unquoted.after_backslash (h : place.Unquoted) (text : List Char) :
    place.after ('\\' :: text) = lost := by
  cases place with
  | outside depth => cases depth <;> exact after_lost text
  | lost => exact after_lost _
  | _ => cases h

theorem next_opener {depth : Nat} (h : opens c = true) :
    (outside depth).next c = outside (depth + 1) := by
  cases depth with
  | zero => rw [next, if_pos h]
  | succ depth =>
    rw [next, if_neg (by grind [opens]), if_neg (by grind [opens]), if_pos h]

theorem next_closer {depth : Nat} (h : closes c = true) :
    (outside (depth + 1)).next c = outside depth := by
  rw [next, if_neg (by grind [closes]), if_neg (by grind [closes]),
    if_neg (by grind [closes, opens]), if_pos h]

theorem next_neutral {depth : Nat} (h : neutral c = true) :
    (outside (depth + 1)).next c = outside (depth + 1) := by
  simp only [neutral, Bool.not_eq_true', Bool.or_eq_false_iff, decide_eq_false_iff_not] at h
  obtain ⟨⟨⟨quote, backslash⟩, opener⟩, closer⟩ := h
  rw [next, if_neg quote, if_neg backslash, opener, closer, if_neg Bool.false_ne_true,
    if_neg Bool.false_ne_true]

/-- What a number starts with is neutral, and so is all that follows. -/
theorem neutral_of_startsNumber (hc : c = '-' ∨ c.isDigit = true) : neutral c = true := by
  have ne {d : Char} (hd : d.isDigit = false) (minus : d ≠ '-') : c ≠ d :=
    ne_of_startsNumber hc hd minus
  simp [neutral, opens, closes, ne (d := '"') (by decide) (by decide),
    ne (d := '\\') (by decide) (by decide), ne (d := '[') (by decide) (by decide),
    ne (d := ']') (by decide) (by decide), ne (d := '\x7b') (by decide) (by decide),
    ne (d := '\x7d') (by decide) (by decide)]

end Place

open Place

/-! ## Characters of a quoted text -/

theorem mem_hexDigits {width n : Nat} {c : Char} (h : c ∈ Text.hexDigits width n) :
    ∃ k < 16, c = Nat.digitChar k := by
  induction width generalizing n with
  | zero => cases h
  | succ width ih =>
    rw [Text.hexDigits, List.mem_append, List.mem_singleton] at h
    rcases h with h | rfl
    · exact ih h
    · exact ⟨n % 16, Nat.mod_lt n (by decide), rfl⟩

theorem ne_of_mem_hexDigits {width n : Nat} {c : Char} (h : c ∈ Text.hexDigits width n) :
    c ≠ '"' ∧ c ≠ '\\' := by
  obtain ⟨k, bound, rfl⟩ := mem_hexDigits h
  have digits : ∀ k < 16, Nat.digitChar k ≠ '"' ∧ Nat.digitChar k ≠ '\\' := by decide
  exact digits k bound

/-- A character stands for itself, or is escaped by a backslash and another character, or by one
or two code units. -/
theorem escaped_cases (charset : Charset) (c : Char) :
    (escaped charset c = [c] ∧ c ≠ '"' ∧ c ≠ '\\') ∨ (∃ d, escaped charset c = ['\\', d]) ∨
      (∃ n, escaped charset c = unitEscape n) ∨
        ∃ n m, escaped charset c = unitEscape n ++ unitEscape m := by
  rw [escaped]
  split_ifs with syntactic
  · exact .inr (.inl ⟨c, rfl⟩)
  · exact .inr (.inl ⟨_, rfl⟩)
  · exact .inr (.inl ⟨_, rfl⟩)
  · exact .inr (.inl ⟨_, rfl⟩)
  · exact .inr (.inl ⟨_, rfl⟩)
  · exact .inr (.inl ⟨_, rfl⟩)
  · exact .inl ⟨rfl, fun h => syntactic (.inl h), fun h => syntactic (.inr h)⟩
  · exact .inr (.inr (.inl ⟨_, rfl⟩))
  · exact .inr (.inr (.inr ⟨_, _, rfl⟩))

namespace Place

variable {place : Place} {depth : Nat}

theorem after_inside {text : List Char} (h : ∀ c ∈ text, c ≠ '"' ∧ c ≠ '\\') :
    (inside depth).after text = inside depth := by
  induction text with
  | nil => rfl
  | cons c text ih =>
    obtain ⟨quote, backslash⟩ := h c List.mem_cons_self
    rw [after_cons, next_inside quote backslash]
    exact ih fun d hd => h d (List.mem_cons_of_mem c hd)

theorem after_unitEscape (n : Nat) : (inside depth).after (unitEscape n) = inside depth := by
  have digits : (inside depth).after (Text.hexDigits 4 n) = inside depth :=
    after_inside fun _ => ne_of_mem_hexDigits
  exact digits

/-- The characters of a quoted text do not end it. -/
theorem after_escapes (s : List Char) :
    (inside depth).after (s.flatMap (escaped charset)) = inside depth := by
  induction s with
  | nil => rfl
  | cons c s ih =>
    rw [List.flatMap_cons, after_append]
    have stays : (inside depth).after (escaped charset c) = inside depth := by
      obtain ⟨h, quote, backslash⟩ | ⟨d, h⟩ | ⟨n, h⟩ | ⟨n, m, h⟩ := escaped_cases charset c
      · rw [h]
        exact next_inside quote backslash
      · rw [h]
        rfl
      · rw [h, after_unitEscape]
      · rw [h, after_append, after_unitEscape, after_unitEscape]
    rw [stays, ih]

/-- A reader that takes the characters of a quoted text for unquoted goes on to do so. -/
theorem Unquoted.after_escapes (h : place.Unquoted) (s : List Char) :
    (place.after (s.flatMap (escaped charset))).Unquoted := by
  induction s generalizing place with
  | nil => exact h
  | cons c s ih =>
    rw [List.flatMap_cons, after_append]
    refine ih ?_
    obtain ⟨plain, quote, -⟩ | ⟨d, escape⟩ | ⟨n, escape⟩ | ⟨n, m, escape⟩ := escaped_cases charset c
    · rw [plain]
      exact h.next quote
    all_goals
      rw [escape]
      exact (h.after_backslash _).symm ▸ trivial

end Place

/-! ## Texts of whole tokens -/

/-- What a text does that is made of whole tokens, with all brackets closed. -/
structure Whole (text : List Char) : Prop where
  outside : ∀ depth, (Place.outside (depth + 1)).after text = .outside (depth + 1)
  quoted : ∀ place : Place, place.Quoted → (place.after text).Quoted

namespace Whole

variable {text text' : List Char} {c : Char}

theorem nil : Whole [] := ⟨fun _ => rfl, fun _ h => h⟩

theorem append (h : Whole text) (h' : Whole text') : Whole (text ++ text') where
  outside depth := by rw [after_append, h.outside, h'.outside]
  quoted place hp := by
    rw [after_append]
    exact h'.quoted _ (h.quoted _ hp)

theorem of_neutral (h : text.all neutral = true) : Whole text := by
  induction text with
  | nil => exact nil
  | cons c text ih =>
    rw [List.all_cons, Bool.and_eq_true] at h
    have first : Whole [c] :=
      ⟨fun _ => next_neutral h.1, fun _ hp => hp.next (by grind [neutral]) (by grind [neutral])⟩
    exact first.append (ih h.2)

theorem comma : Whole [','] := of_neutral (by decide)

theorem colon : Whole [':'] := of_neutral (by decide)

theorem commaSeparated {pieces : List (List Char)} (h : ∀ piece ∈ pieces, Whole piece) :
    Whole (commaSeparated pieces) := by
  induction pieces with
  | nil => exact nil
  | cons piece rest ih =>
    have first := h piece List.mem_cons_self
    cases rest with
    | nil => exact first
    | cons other rest =>
      exact first.append (comma.append (ih fun p hp => h p (List.mem_cons_of_mem _ hp)))

theorem after_brackets {opener closer : Char} (opening : opens opener = true)
    (closing : closes closer = true) (h : Whole text) (depth : Nat) :
    (Place.outside depth).after (opener :: (text ++ [closer])) = .outside depth := by
  rw [after_cons, next_opener opening, after_append, h.outside]
  exact next_closer closing

theorem brackets {opener closer : Char} (opening : opens opener = true)
    (closing : closes closer = true) (h : Whole text) : Whole (opener :: (text ++ [closer])) where
  outside depth := after_brackets opening closing h (depth + 1)
  quoted place hp := by
    rw [after_cons, after_append]
    have opened := hp.next (c := opener) (by grind [opens]) (by grind [opens])
    exact (h.quoted _ opened).next (by grind [closes]) (by grind [closes])

/-- A text in quotes. -/
theorem textChars (s : String) : Whole (textChars charset s) where
  outside depth := (after_append _ _).trans (congrArg (·.next '"') (after_escapes s.toList))
  quoted place hp := by
    rw [Json.textChars, after_cons, after_append]
    exact (hp.next_quote.after_escapes s.toList).next_quote

/-- The text of an integer. -/
theorem intChars (n : Int) : Whole (intChars n) := by
  obtain ⟨c, s, text, first, digits, -⟩ := intChars_eq n
  refine of_neutral (List.all_eq_true.2 fun d hd => neutral_of_startsNumber ?_)
  rw [text] at hd
  obtain rfl | later := List.mem_cons.1 hd
  · exact first
  · exact .inr (List.all_eq_true.1 digits d later)

/-- The texts of fields. -/
theorem fields {fields : Fields} (h : ∀ field ∈ fields, Whole (field.2.chars charset)) :
    Whole (Json.commaSeparated (fields.map fun field =>
      fieldText charset field.1 (field.2.chars charset))) := by
  refine commaSeparated fun piece hp => ?_
  obtain ⟨field, hf, rfl⟩ := List.mem_map.1 hp
  exact (textChars field.1).append (colon.append (h field hf))

end Whole

/-- **The text of a value is made of whole tokens.** -/
theorem Plain.whole {v : Json} (hv : Plain v) : Whole (v.chars charset) := by
  induction hv with
  | null => exact .of_neutral (by cases charset <;> decide)
  | bool value => cases charset <;> cases value <;> exact .of_neutral (by decide)
  | int n => exact .intChars n
  | str s => exact .textChars s
  | @arr items _ ih =>
    rw [chars_arr]
    refine .brackets rfl rfl (.commaSeparated fun piece hp => ?_)
    obtain ⟨v, hv, rfl⟩ := List.mem_map.1 hp
    exact ih v hv
  | @obj fields _ _ ih =>
    rw [chars_obj]
    exact .brackets rfl rfl (.fields ih)

end SignedOrders.Json
