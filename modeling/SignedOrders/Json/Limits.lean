import SignedOrders.Json.Printer
import SignedOrders.Json.Reader

/-!
# The limits of JSON texts

A value is written, and read from a text, one level of nesting inside the other, and
an integer as a whole.  For both there is a limit: an integer with more digits is
refused, and so are arrays and objects that stand deeper in one another.  What comes
first in the text is what stands in the way.
-/

namespace SignedOrders.Json

/-- What texts may hold when they are written or read. -/
structure Limits where
  /-- The most digits of an integer. -/
  digits : Nat
  /-- The most arrays and objects in one another; calls under way leave fewer of them. -/
  levels : Nat
  deriving DecidableEq, Repr

/-- The limits that hold unless others are set, for a call from not far below the top. -/
def Limits.standard : Limits := ⟨4300, 990⟩

/-- What stands in the way of a text, or of reading one. -/
inductive Obstacle where
  /-- A value that has no text, or a text that has no value. -/
  | malformed
  /-- An integer with too many digits. -/
  | tooLong
  /-- An array or an object inside too many others. -/
  | tooDeep
  deriving DecidableEq, Repr

mutual

/-- The first thing in a value that stands in the way of its text, if integers may have
`digits` digits and so many levels of nesting are left. -/
def obstacle? (digits : Nat) : Nat → Json → Option Obstacle
  | _, .int n => if Decimal.width n.natAbs ≤ digits then none else some .tooLong
  | 0, .arr _ => some .tooDeep
  | levels + 1, .arr items => itemObstacle? digits levels items
  | 0, .obj _ => some .tooDeep
  | levels + 1, .obj fields => fieldObstacle? digits levels fields
  -- whether a value has a text is asked one level further down
  | 0, .unrepresentable => some .tooDeep
  | _ + 1, .unrepresentable => some .malformed
  | _, _ => none

/-- The first obstacle among the items of an array. -/
def itemObstacle? (digits levels : Nat) : List Json → Option Obstacle
  | [] => none
  | v :: rest => (v.obstacle? digits levels).or (itemObstacle? digits levels rest)

/-- The first obstacle among the values of an object. -/
def fieldObstacle? (digits levels : Nat) : List (String × Json) → Option Obstacle
  | [] => none
  | (_, v) :: rest => (v.obstacle? digits levels).or (fieldObstacle? digits levels rest)

end

/-- `r`, unless something stands in the way. -/
def Obstacle.before (obstacle : Option Obstacle) (r : α) : Except Obstacle α :=
  match obstacle with
  | none => .ok r
  | some obstacle => .error obstacle

/-- The canonical text of a value within the limits. -/
def written (limits : Limits) (v : Json) : Except Obstacle String :=
  Obstacle.before (v.sorted.obstacle? limits.digits limits.levels) v.render

/-- The value that the characters of a text write, within the limits. -/
def readWithin (limits : Limits) (text : List Char) : Except Obstacle Json :=
  match readChars? text with
  | none => .error .malformed
  | some v => Obstacle.before (v.obstacle? limits.digits limits.levels) v

/-- A value read back from its text. -/
def reread (limits : Limits) (v : Json) : Except Obstacle Json :=
  if v.isRepresentable then readWithin limits (v.chars .unicode) else .error .malformed

end SignedOrders.Json
