import SignedOrders.Binary64.Basic

/-!
# JSON values

Requests, payloads and answers are JSON values.  Integers are exact and kept
apart from binary floating-point numbers, which are the numbers written with a
point or a power.  An object is a list of fields with different keys, in the
order in which they were written; `get?` and `set` look at one field.

`unrepresentable` stands for a value that a program can put into a payload and
that has no JSON text; `isRepresentable` says that none occurs.
-/

namespace SignedOrders

/-- A JSON value. -/
inductive Json where
  | null
  | bool (value : Bool)
  | int (value : Int)
  | float (value : Binary64)
  | str (value : String)
  | arr (items : List Json)
  | obj (fields : List (String × Json))
  | unrepresentable

namespace Json

instance : Inhabited Json := ⟨.null⟩

/-- The fields of an object. -/
abbrev Fields := List (String × Json)

namespace Fields

/-- The value of the field `key`. -/
def get? (fields : Fields) (key : String) : Option Json :=
  (fields.find? fun field => field.1 == key).map (·.2)

/-- The fields with `value` at `key`, in place if the key is there and at the end
otherwise. -/
def set (fields : Fields) (key : String) (value : Json) : Fields :=
  if fields.any fun field => field.1 == key then
    fields.map fun field => if field.1 == key then (key, value) else field
  else fields ++ [(key, value)]

/-- The fields without those whose key is in `keys`. -/
def without (fields : Fields) (keys : List String) : Fields :=
  fields.filter fun field => !keys.contains field.1

@[simp] theorem get?_nil (key : String) : get? [] key = none := rfl

theorem get?_cons (field : String × Json) (fields : Fields) (key : String) :
    get? (field :: fields) key = if field.1 == key then some field.2 else get? fields key := by
  simp only [get?, List.find?_cons]
  split <;> simp_all

end Fields

/-- The fields of a value that is an object. -/
def fields? : Json → Option Fields
  | .obj fields => some fields
  | _ => none

/-- The field `key` of a value; none when it has none or is no object. -/
def get? (v : Json) (key : String) : Option Json :=
  match v with
  | .obj fields => Fields.get? fields key
  | _ => none

/-- An optional text. -/
def ofText? (s : Option String) : Json :=
  match s with
  | some s => .str s
  | none => .null

mutual

/-- Everything in the value can be written as JSON.  Its text may still be beyond the limits. -/
def isRepresentable : Json → Bool
  | .unrepresentable => false
  | .arr items => areRepresentable items
  | .obj fields => haveText fields
  | _ => true

/-- All items of an array can be written. -/
def areRepresentable : List Json → Bool
  | [] => true
  | v :: rest => v.isRepresentable && areRepresentable rest

/-- All values of an object can be written. -/
def haveText : List (String × Json) → Bool
  | [] => true
  | (_, v) :: rest => v.isRepresentable && haveText rest

end

end Json

end SignedOrders
