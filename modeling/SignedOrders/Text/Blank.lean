import SignedOrders.Text.CharRange

/-!
# Blanks

Text given by a client may be padded.  A character is a **blank** when Unicode
gives it the property `White_Space` or the bidirectional class of a separator
(so the four information separators U+001C to U+001F are blanks too).  Numbers
written in a settings file know the narrower class `isWhiteSpace`.

`trim` removes the blanks at both ends of a text.
-/

namespace SignedOrders.Text

/-- Runs of the characters that are blank. -/
def blankRuns : List (Nat × Nat) :=
  [(9, 13), (28, 32), (133, 133), (160, 160), (5760, 5760), (8192, 8202), (8232, 8233),
    (8239, 8239), (8287, 8287), (12288, 12288)]

/-- A character that pads a text without being part of it. -/
def isBlank (c : Char) : Bool := inRanges blankRuns c

/-- The characters with the property `White_Space`: the blanks other than the
information separators. -/
def isWhiteSpace (c : Char) : Bool := isBlank c && !(28 ≤ c.toNat && c.toNat ≤ 31)

/-- Every character that core counts as whitespace is blank. -/
theorem isBlank_of_isWhitespace {c : Char} (h : c.isWhitespace = true) : isBlank c = true := by
  simp only [Char.isWhitespace, Bool.or_eq_true, decide_eq_true_eq] at h
  rcases h with ((rfl | rfl) | rfl) | rfl <;> decide

/-- `s` without the characters satisfying `p` at its two ends. -/
def trimBy (p : Char → Bool) (s : List Char) : List Char :=
  ((s.dropWhile p).reverse.dropWhile p).reverse

/-- `s` without the blanks at its two ends. -/
def trim (s : List Char) : List Char := trimBy isBlank s

@[simp] theorem trim_nil : trim [] = [] := rfl

end SignedOrders.Text
