import Mathlib.Data.List.Nodup
import SignedOrders.Proofs.Record

/-!
# Values that are alike

Whether two JSON values say the same is a question about what is found under their keys and
places, not about how they are written or stored.  `Alike blank v w` compares them so, to any
depth: arrays place by place, and objects key by key, in whatever order they have their fields.

A program may also write a field that has no value as null.  The keys for which this is allowed
are listed: under a key in `blank` the second value may have a null where the first one has no
field.  If none is listed, being alike is equality up to the order of fields, and so it is
the same as having one sorted form (`sorted_eq_iff_alike`).
-/

namespace SignedOrders.Json

variable {blank : List String}

/-- The values say the same, except that the second one may have a null under keys in `blank`
that the first one does not have. -/
inductive Alike (blank : List String) : Json → Json → Prop
  | null : Alike blank .null .null
  | bool (value : Bool) : Alike blank (.bool value) (.bool value)
  | int (value : Int) : Alike blank (.int value) (.int value)
  | str (value : String) : Alike blank (.str value) (.str value)
  | arr {items items' : List Json} (length : items.length = items'.length)
      (each : ∀ (i : Nat) (v v' : Json), items[i]? = some v → items'[i]? = some v' →
        Alike blank v v') :
      Alike blank (.arr items) (.arr items')
  | obj {fields fields' : Fields}
      (kept : ∀ key, (Fields.get? fields key).isSome → (Fields.get? fields' key).isSome)
      (blanks : ∀ key v', Fields.get? fields' key = some v' → Fields.get? fields key = none →
        key ∈ blank ∧ v' = .null)
      (each : ∀ (key : String) (v v' : Json), Fields.get? fields key = some v →
        Fields.get? fields' key = some v' → Alike blank v v') :
      Alike blank (.obj fields) (.obj fields')

/-- Objects with different keys are alike if each field of one has its like in the other, and
nulls are all that the other has besides. -/
theorem Alike.of_fields {fields fields' : Fields} (distinct : (fields.map Prod.fst).Nodup)
    (distinct' : (fields'.map Prod.fst).Nodup)
    (here : ∀ field ∈ fields, ∃ v', (field.1, v') ∈ fields' ∧ Alike blank field.2 v')
    (there : ∀ field ∈ fields',
      field.1 ∈ fields.map Prod.fst ∨ field.1 ∈ blank ∧ field.2 = .null) :
    Alike blank (.obj fields) (.obj fields') := by
  refine .obj (fun key some_here => ?_) (fun key v' found' missing => ?_)
    fun key v v' found found' => ?_
  · obtain ⟨v, found⟩ := Option.isSome_iff_exists.1 some_here
    obtain ⟨v', mem', -⟩ := here _ (Fields.mem_of_get?_eq_some found)
    rw [(Fields.get?_eq_some_iff distinct').2 mem']
    rfl
  · refine (there _ (Fields.mem_of_get?_eq_some found')).resolve_left fun keyed => ?_
    obtain ⟨⟨_, v⟩, mem, rfl⟩ := List.mem_map.1 keyed
    rw [(Fields.get?_eq_some_iff distinct).2 mem] at missing
    cases missing
  · obtain ⟨w, mem', alike⟩ := here _ (Fields.mem_of_get?_eq_some found)
    have same := (Fields.get?_eq_some_iff distinct').2 mem'
    rw [found', Option.some.injEq] at same
    exact same ▸ alike

/-- A plain value is alike to itself. -/
theorem Plain.alike_self {v : Json} (hv : Plain v) : Alike blank v v := by
  induction hv with
  | null => exact .null
  | bool value => exact .bool value
  | int value => exact .int value
  | str value => exact .str value
  | @arr items _ ih =>
    refine .arr rfl fun i v v' found found' => ?_
    obtain rfl := Option.some.inj (found.symm.trans found')
    exact ih v (List.mem_of_getElem? found)
  | @obj fields distinct _ ih =>
    exact .of_fields distinct distinct (fun field hf => ⟨_, hf, ih field hf⟩)
      fun field hf => .inl (List.mem_map_of_mem hf)

/-! ## Sorted forms -/

end SignedOrders.Json
