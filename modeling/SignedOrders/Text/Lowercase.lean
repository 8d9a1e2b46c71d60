import SignedOrders.Text.CharRange
import SignedOrders.Text.CaseTable

/-!
# Lowercase

`lowercase` maps a text to lowercase by the full rules of Unicode.  Two of them
go beyond a table of single letters: `İ` becomes an `i` followed by a combining
dot, and a capital sigma becomes `ς` at the end of a word and `σ` elsewhere.
-/

namespace SignedOrders.Text

/-- The lowercase of a single letter, apart from `İ` and `Σ`. -/
def lowercaseLetter (c : Char) : Char :=
  match lowercaseSegments.find? fun s =>
      s.first ≤ c.toNat && c.toNat ≤ s.last && (c.toNat - s.first) % s.stride == 0 with
  | some s => Char.ofNat (c.toNat + s.shift).toNat
  | none => c

/-- The nearest character that case rules do not look through is cased. -/
def facesCased (s : List Char) : Bool :=
  match s.dropWhile (inRanges caseIgnorableRuns) with
  | c :: _ => inRanges casedRuns c
  | [] => false

/-- The lowercase of the text `rest` standing after the text whose reversal is
`before`. -/
def lowercaseAfter (before : List Char) : List Char → List Char
  | [] => []
  | c :: rest =>
    let here :=
      if c = 'Σ' then
        [if facesCased before && !facesCased rest then 'ς' else 'σ']
      else if c = 'İ' then ['i', '\u0307']
      else [lowercaseLetter c]
    here ++ lowercaseAfter (c :: before) rest

/-- `s` in lowercase. -/
def lowercase (s : List Char) : List Char := lowercaseAfter [] s

end SignedOrders.Text
