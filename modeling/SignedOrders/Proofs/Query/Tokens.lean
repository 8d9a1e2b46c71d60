import SignedOrders.Proofs.Digits

/-!
# The tokens of a query

A query is a text of names and marks.  A **name** is as long as the text allows; blanks and
commas separate names and mean nothing else.  Characters that are neither belong to no query, and
no name starts with a digit.

The tokens of a text are those of its parts, if each part after the first starts with a character
that cannot go on with a name (`Reads.append`).  So a text that is put together from fixed parts
and numbers is read part by part: the fixed parts by evaluation, and a number goes on with the
name before it (`follows_numbered`).
-/

namespace SignedOrders.Query

/-- A token of a query. -/
inductive Token where
  | name (text : String)
  | mark (c : Char)
  deriving DecidableEq, Repr

/-! ## Reading tokens -/

/-- A character of names. -/
def isNameChar (c : Char) : Bool := c.isAlphanum || c = '_'

/-- A character that only separates tokens. -/
def isSeparator (c : Char) : Bool := c = ' ' || c = '\n' || c = '\t' || c = '\r' || c = ','

/-- A character that is a token of its own. -/
def isMark (c : Char) : Bool := ['!', '$', '(', ')', ':', '\x7b', '\x7d'].contains c

/-- A name with the given characters, if there are any. -/
def named (word : List Char) : List Token :=
  if word = [] then [] else [.name (String.ofList word)]

/-- What has been scanned: the tokens that have ended, and the characters of a name that has not. -/
structure Scanned where
  ended : List Token
  word : List Char
  deriving DecidableEq

/-- What has been scanned, with tokens before it. -/
def Scanned.after (ts : List Token) (scanned : Scanned) : Scanned :=
  ⟨ts ++ scanned.ended, scanned.word⟩

/-- What is scanned in a text that goes on after the characters of a name. -/
def scan (word : List Char) : List Char → Option Scanned
  | [] => some ⟨[], word⟩
  | c :: s =>
    if isNameChar c then
      if word = [] ∧ c.isDigit = true then none else scan (word ++ [c]) s
    else if isSeparator c then (scan [] s).map (.after (named word))
    else if isMark c then (scan [] s).map (.after (named word ++ [.mark c]))
    else none

/-- The tokens of a text. -/
def tokens? (s : List Char) : Option (List Token) :=
  (scan [] s).map fun scanned => scanned.ended ++ named scanned.word

/-! ## Scanning in parts -/

variable {c : Char} {s t word : List Char} {ts us : List Token} {scanned : Scanned}

theorem Scanned.after_after : Scanned.after ts (.after us scanned) = .after (ts ++ us) scanned := by
  rw [after, after, after, List.append_assoc]

/-- **A text is scanned part by part.** -/
theorem scan_append (word s t : List Char) :
    scan word (s ++ t) =
      (scan word s).bind fun first => (scan first.word t).map (.after first.ended) := by
  induction s generalizing word with
  | nil =>
    rw [List.nil_append, scan, Option.bind_some]
    exact Option.map_id'.symm
  | cons c s ih =>
    -- both sides put the same tokens before what is scanned after `c`
    have shift (ts : List Token) : (scan [] (s ++ t)).map (Scanned.after ts) =
        ((scan [] s).map (Scanned.after ts)).bind fun first =>
          (scan first.word t).map (.after first.ended) := by
      rw [ih, Option.map_bind, Option.bind_map]
      refine Option.bind_congr fun first _ => ?_
      rw [Function.comp_apply, Option.map_map]
      exact Option.map_congr fun scanned _ => Scanned.after_after
    rw [List.cons_append, scan, scan]
    split
    · split
      · rfl
      · exact ih _
    split
    · exact shift _
    split
    · exact shift _
    · rfl

/-- A text that starts with a character that is none of names. -/
def startsApart (s : List Char) : Bool := s.head?.any fun c => !isNameChar c

/-- Such a text ends the name before it. -/
theorem scan_of_startsApart (h : startsApart s = true) (word : List Char) :
    scan word s = (scan [] s).map (.after (named word)) := by
  cases s with
  | nil => cases h
  | cons c s =>
    have apart : ¬isNameChar c = true := by simpa [startsApart] using h
    rw [scan, scan, if_neg apart, if_neg apart]
    have shift (ts : List Token) : (scan [] s).map (Scanned.after (named word ++ ts)) =
        ((scan [] s).map (Scanned.after (named [] ++ ts))).map (Scanned.after (named word)) := by
      rw [Option.map_map]
      exact Option.map_congr fun scanned _ => Scanned.after_after.symm
    split
    · simpa only [List.append_nil] using shift []
    split
    · exact shift _
    · rfl

/-- Characters of names go on with the name before them. -/
theorem scan_name (all : s.all isNameChar = true) (started : word ≠ []) :
    scan word s = some ⟨[], word ++ s⟩ := by
  induction s generalizing word with
  | nil => rw [scan, List.append_nil]
  | cons c s ih =>
    rw [List.all_cons, Bool.and_eq_true] at all
    rw [scan, if_pos all.1, if_neg fun h => started h.1, ih all.2 (by simp), List.append_assoc]
    rfl

/-! ## Reading texts -/

/-- The tokens of a text are these. -/
def Reads (text : String) (tokens : List Token) : Prop := tokens? text.toList = some tokens

instance (text : String) (tokens : List Token) : Decidable (Reads text tokens) :=
  inferInstanceAs (Decidable (_ = _))

variable {a b : String}

theorem reads_iff : Reads a ts ↔
    ∃ scanned, scan [] a.toList = some scanned ∧ scanned.ended ++ named scanned.word = ts := by
  rw [Reads, tokens?, Option.map_eq_some_iff]

/-- A text that can follow any other: it has these tokens, and ends a name before it. -/
structure Follows (text : String) (tokens : List Token) : Prop where
  reads : Reads text tokens
  apart : startsApart text.toList = true

/-- **A text is read part by part**, if the second part can follow any text. -/
theorem Reads.append (ha : Reads a ts) (hb : Follows b us) : Reads (a ++ b) (ts ++ us) := by
  obtain ⟨hb, apart⟩ := hb
  rw [reads_iff] at ha hb ⊢
  obtain ⟨first, scanA, rfl⟩ := ha
  obtain ⟨second, scanB, rfl⟩ := hb
  refine ⟨.after (first.ended ++ named first.word) second, ?_, ?_⟩
  · rw [String.toList_append, scan_append, scanA, Option.bind_some, scan_of_startsApart apart,
      scanB, Option.map_some, Option.map_some, Scanned.after_after]
  · simp only [Scanned.after, List.append_assoc]

theorem startsApart_append (h : startsApart a.toList = true) (b : String) :
    startsApart (a ++ b).toList = true := by
  rw [String.toList_append, startsApart, List.head?_append]
  cases first : a.toList.head? with
  | none => simp [startsApart, first] at h
  | some c => rwa [startsApart, first] at h

theorem Follows.append (ha : Follows a ts) (hb : Follows b us) : Follows (a ++ b) (ts ++ us) :=
  ⟨ha.reads.append hb, startsApart_append ha.apart b⟩

/-- **Texts with separators between them** are read one by one. -/
theorem follows_intercalate {α : Type} {separator : String} {text : α → String}
    {tokens : α → List Token} (between : Follows separator [])
    (parts : ∀ x, Follows (text x) (tokens x)) :
    ∀ l : List α, l ≠ [] → Follows (separator.intercalate (l.map text)) (l.flatMap tokens)
  | [], nonempty => absurd rfl nonempty
  | [x], _ => by
    rw [List.map_singleton, String.intercalate_singleton, List.flatMap_singleton]
    exact parts x
  | x :: y :: l, _ => by
    have rest := follows_intercalate between parts (y :: l) (List.cons_ne_nil y l)
    have all := ((parts x).append between).append rest
    rwa [List.append_nil, ← List.flatMap_cons, List.map_cons, ← String.intercalate_cons_cons] at all

/-- **A number goes on with the name before it.** -/
theorem follows_numbered (a name : String) (ts : List Token)
    (h : scan [] a.toList = some ⟨ts, name.toList⟩) (started : name ≠ "")
    (apart : startsApart a.toList = true) (n : Nat) :
    Follows (a ++ toString n) (ts ++ [.name (name ++ toString n)]) := by
  have word : name.toList ≠ [] := fun none => started (String.toList_eq_nil_iff.1 none)
  have digits : (toString n).toList.all isNameChar = true := by
    rw [Nat.toString_eq_ofList_toDigits, String.toList_ofList, List.all_eq_true]
    intro c hc
    have digit := Decimal.isDigit_of_mem_digits hc
    simp [isNameChar, Char.isAlphanum, digit]
  refine ⟨reads_iff.2 ⟨⟨ts ++ [], name.toList ++ (toString n).toList⟩, ?_, ?_⟩,
    startsApart_append apart _⟩
  · rw [String.toList_append, scan_append, h, Option.bind_some, scan_name digits word]
    rfl
  · rw [← String.toList_append, named, if_neg (by simp [started]), String.ofList_toList,
      List.append_nil]

end SignedOrders.Query
