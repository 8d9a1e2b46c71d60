/-!
# Pieces between separators

`split sep s` cuts `s` at every occurrence of the separator, taken from left to
right and without overlap, and `join sep` puts pieces together again.  The pieces of a
text joined are the text (`join_split`), and pieces that all lack some character of the
separator are those of their joined text (`split_join`).
-/

namespace SignedOrders.Text

/-- What follows `sep` in `s`, when `s` starts with it. -/
def dropStart? : List Char → List Char → Option (List Char)
  | [], s => some s
  | _ :: _, [] => none
  | a :: sep, c :: s => if a = c then dropStart? sep s else none

theorem eq_append_of_dropStart? {sep s rest : List Char} (h : dropStart? sep s = some rest) :
    s = sep ++ rest := by
  induction sep generalizing s with
  | nil => simpa [dropStart?] using h
  | cons a sep ih =>
    cases s with
    | nil => simp [dropStart?] at h
    | cons c s =>
      simp only [dropStart?] at h
      split at h
      · next hac => subst hac; rw [ih h]; rfl
      · simp at h

theorem length_of_dropStart? {sep s rest : List Char} (h : dropStart? sep s = some rest) :
    s.length = sep.length + rest.length := by
  rw [eq_append_of_dropStart? h, List.length_append]

/-- The pieces of `s` between occurrences of the separator `a :: sep`, where
`piece` holds the reversal of what has been read of the current piece. -/
def splitFrom (a : Char) (sep : List Char) (piece : List Char) (s : List Char) :
    List (List Char) :=
  match _found : dropStart? (a :: sep) s with
  | some rest => piece.reverse :: splitFrom a sep [] rest
  | none =>
    match s with
    | [] => [piece.reverse]
    | c :: rest => splitFrom a sep (c :: piece) rest
termination_by s.length
decreasing_by
  · have := length_of_dropStart? _found
    simp only [List.length_cons] at this
    omega
  · simp

/-- The pieces of `s` between occurrences of `sep`.  An empty separator does not
occur, so that it leaves the text whole. -/
def split (sep s : List Char) : List (List Char) :=
  match sep with
  | [] => [s]
  | a :: sep => splitFrom a sep [] s

theorem splitFrom_ne_nil (a : Char) (sep piece s : List Char) :
    splitFrom a sep piece s ≠ [] := by
  fun_induction splitFrom a sep piece s <;> simp_all

/-- The pieces in one text, with `sep` between neighbours. -/
def join (sep : List Char) (pieces : List (List Char)) : List Char :=
  (pieces.intersperse sep).flatten

theorem join_cons {sep piece : List Char} {pieces : List (List Char)} (h : pieces ≠ []) :
    join sep (piece :: pieces) = piece ++ sep ++ join sep pieces := by
  cases pieces with
  | nil => exact absurd rfl h
  | cons => simp [join]

theorem join_splitFrom (a : Char) (sep piece s : List Char) :
    join (a :: sep) (splitFrom a sep piece s) = piece.reverse ++ s := by
  fun_induction splitFrom a sep piece s with
  | case1 piece s rest h ih =>
    rw [join_cons (splitFrom_ne_nil _ _ _ _), ih, eq_append_of_dropStart? h]
    simp
  | case2 => simp [join]
  | case3 piece c rest h ih => rw [ih]; simp

/-- **Nothing is lost by splitting**: the pieces joined again are the text. -/
theorem join_split (sep s : List Char) : join sep (split sep s) = s := by
  cases sep with
  | nil => simp [split, join]
  | cons a sep => simp [split, join_splitFrom]

theorem count_join (c : Char) (sep : List Char) (pieces : List (List Char)) :
    (join sep pieces).count c = pieces.flatten.count c + (pieces.length - 1) * sep.count c := by
  induction pieces with
  | nil => simp [join]
  | cons p pieces ih =>
    cases pieces with
    | nil => simp [join]
    | cons q pieces =>
      rw [join_cons (List.cons_ne_nil q pieces), List.count_append, List.count_append, ih]
      simp only [List.flatten_cons, List.count_append, List.length_cons, Nat.add_sub_cancel,
        Nat.succ_mul]
      omega

/-! ## Pieces that lack a character of the separator -/

section

variable {a c : Char} {sep p s rest : List Char} {pieces : List (List Char)}

/-- The separator does not start before the first place of a character of it. -/
theorem dropStart?_append_of_notMem (there : c ∈ sep) (clean : c ∉ p) (nonempty : p ≠ []) :
    dropStart? sep (p ++ (sep ++ s)) = none := by
  refine Option.eq_none_iff_forall_not_mem.2 fun rest found => nonempty ?_
  have first := congrArg (List.idxOf c) (eq_append_of_dropStart? found)
  rw [List.idxOf_append, if_neg clean, List.idxOf_append, if_pos there, List.idxOf_append,
    if_pos there] at first
  exact List.eq_nil_of_length_eq_zero (by omega)

theorem dropStart?_self (sep s : List Char) : dropStart? sep (sep ++ s) = some s := by
  induction sep with
  | nil => rfl
  | cons a sep ih => simpa [dropStart?] using ih

theorem dropStart?_of_notMem (there : c ∈ sep) (clean : c ∉ s) : dropStart? sep s = none := by
  refine Option.eq_none_iff_forall_not_mem.2 fun rest found => clean ?_
  rw [eq_append_of_dropStart? found]
  exact List.mem_append_left rest there

theorem splitFrom_of_dropStart? (found : dropStart? (a :: sep) s = some rest)
    (piece : List Char) :
    splitFrom a sep piece s = piece.reverse :: splitFrom a sep [] rest := by
  rw [splitFrom]
  split
  · next found' =>
    rw [found] at found'
    cases found'
    rfl
  · next none => simp [found] at none

theorem splitFrom_cons (none : dropStart? (a :: sep) (c :: s) = none) (piece : List Char) :
    splitFrom a sep piece (c :: s) = splitFrom a sep (c :: piece) s := by
  rw [splitFrom]
  split
  · next found => simp [none] at found
  · rfl

/-- Up to the separator a text is read into the current piece. -/
theorem splitFrom_append (there : c ∈ a :: sep) (clean : c ∉ p) (piece s : List Char) :
    splitFrom a sep piece (p ++ (a :: sep ++ s)) =
      (piece.reverse ++ p) :: splitFrom a sep [] s := by
  induction p generalizing piece with
  | nil => simpa using splitFrom_of_dropStart? (dropStart?_self (a :: sep) s) piece
  | cons d p ih =>
    have none := dropStart?_append_of_notMem (s := s) there clean (List.cons_ne_nil d p)
    rw [List.cons_append] at none ⊢
    rw [splitFrom_cons none, ih (List.not_mem_of_not_mem_cons clean)]
    simp

/-- A text that lacks a character of the separator is one piece. -/
theorem splitFrom_of_notMem (there : c ∈ a :: sep) (clean : c ∉ p) (piece : List Char) :
    splitFrom a sep piece p = [piece.reverse ++ p] := by
  induction p generalizing piece with
  | nil =>
    rw [splitFrom]
    simp [dropStart?]
  | cons d p ih =>
    rw [splitFrom_cons (dropStart?_of_notMem there clean),
      ih (List.not_mem_of_not_mem_cons clean)]
    simp

/-- **Pieces that all lack a character of the separator are found again in their joined
text.** -/
theorem split_join (there : c ∈ sep) (nonempty : pieces ≠ []) (clean : ∀ p ∈ pieces, c ∉ p) :
    split sep (join sep pieces) = pieces := by
  cases sep with
  | nil => cases there
  | cons a sep =>
    show splitFrom a sep [] (join (a :: sep) pieces) = pieces
    induction pieces with
    | nil => exact absurd rfl nonempty
    | cons p pieces ih =>
      obtain ⟨here, later⟩ := List.forall_mem_cons.1 clean
      cases pieces with
      | nil => simpa [join] using splitFrom_of_notMem there here []
      | cons q pieces =>
        rw [join_cons (List.cons_ne_nil q pieces), List.append_assoc,
          splitFrom_append there here, ih (List.cons_ne_nil q pieces) later]
        rfl

end

/-! ## One character between the pieces -/

variable {a : Char} {piece s p : List Char}

theorem splitFrom_nil (a : Char) (piece : List Char) :
    splitFrom a [] piece [] = [piece.reverse] := by
  rw [splitFrom]
  rfl

theorem splitFrom_self (a : Char) (piece s : List Char) :
    splitFrom a [] piece (a :: s) = piece.reverse :: splitFrom a [] [] s :=
  splitFrom_of_dropStart? (dropStart?_self [a] s) piece

theorem splitFrom_of_ne {c : Char} (other : a ≠ c) (piece s : List Char) :
    splitFrom a [] piece (c :: s) = splitFrom a [] (c :: piece) s :=
  splitFrom_cons (by simp [dropStart?, other]) piece

/-- No piece contains the separator. -/
theorem not_mem_of_mem_splitFrom (clean : a ∉ piece) (h : p ∈ splitFrom a [] piece s) :
    a ∉ p := by
  induction s generalizing piece with
  | nil =>
    rw [splitFrom_nil, List.mem_singleton] at h
    simpa [h] using clean
  | cons c s ih =>
    by_cases other : a = c
    · subst other
      rw [splitFrom_self, List.mem_cons] at h
      rcases h with rfl | h
      · simpa using clean
      · exact ih List.not_mem_nil h
    · rw [splitFrom_of_ne other] at h
      exact ih (by simp [other, clean]) h

theorem split_ne_nil (sep s : List Char) : split sep s ≠ [] := by
  cases sep with
  | nil => simp [split]
  | cons a sep => exact splitFrom_ne_nil a sep [] s

theorem not_mem_of_mem_split (h : p ∈ split [a] s) : a ∉ p :=
  not_mem_of_mem_splitFrom List.not_mem_nil h

end SignedOrders.Text
