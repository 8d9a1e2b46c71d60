/-!
# Sets of characters given by ranges

A property of characters is tabulated as the list of its maximal runs of code
points.  `inRanges` is membership in such a list, and `mem_inRanges` says so:
a character has the property iff one of the runs holds its code point.
-/

namespace SignedOrders.Text

/-- The code point of `c` lies in one of `runs`, both ends included. -/
def inRanges (runs : List (Nat × Nat)) (c : Char) : Bool :=
  runs.any fun run => run.1 ≤ c.toNat && c.toNat ≤ run.2

theorem mem_inRanges {runs : List (Nat × Nat)} {c : Char} :
    inRanges runs c = true ↔ ∃ run ∈ runs, run.1 ≤ c.toNat ∧ c.toNat ≤ run.2 := by
  simp [inRanges]

end SignedOrders.Text
