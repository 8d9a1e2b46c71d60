import SignedOrders.Json.Printer

/-!
# JSON values up to the order of fields

The canonical text of a value does not depend on the order of the fields of its
objects.  It is the text of the value's sorted form, in which the fields of every
object are in order, at every depth; and it will be seen that it tells no less.

Values are considered that are `Plain`: free of floating-point numbers and of values
that have no text, and with different keys in each object.
-/

namespace SignedOrders.Json

/-- Built of null, flags, integers, texts, arrays, and objects with different keys. -/
inductive Plain : Json → Prop where
  | null : Plain .null
  | bool (value : Bool) : Plain (.bool value)
  | int (value : Int) : Plain (.int value)
  | str (value : String) : Plain (.str value)
  | arr {items : List Json} (h : ∀ v ∈ items, Plain v) : Plain (.arr items)
  | obj {fields : Fields} (distinct : (fields.map Prod.fst).Nodup)
      (h : ∀ field ∈ fields, Plain field.2) : Plain (.obj fields)

theorem sortedItems_eq_map (items : List Json) : sortedItems items = items.map sorted := by
  induction items with
  | nil => rfl
  | cons v rest ih => rw [sortedItems, ih, List.map_cons]

theorem sortedFields_eq_map (fields : Fields) :
    sortedFields fields = fields.map fun field => (field.1, field.2.sorted) := by
  induction fields with
  | nil => rfl
  | cons field rest ih => rw [sortedFields, ih, List.map_cons]

theorem itemChars_eq_map (charset : Charset) (items : List Json) :
    itemChars charset items = items.map (chars charset) := by
  induction items with
  | nil => rfl
  | cons v rest ih => rw [itemChars, ih, List.map_cons]

theorem fieldChars_eq_map (charset : Charset) (fields : Fields) :
    fieldChars charset fields =
      fields.map fun field => fieldText charset field.1 (field.2.chars charset) := by
  induction fields with
  | nil => rfl
  | cons field rest ih => rw [fieldChars, ih, List.map_cons]

/-! ## Sorting by key -/

theorem insertByKey_perm (field : String × α) (fields : List (String × α)) :
    (insertByKey field fields).Perm (field :: fields) := by
  induction fields with
  | nil => exact .refl _
  | cons other rest ih =>
    rw [insertByKey]
    split
    · exact .refl _
    · exact (ih.cons other).trans (.swap field other rest)

theorem sortedByKey_perm (fields : List (String × α)) : (sortedByKey fields).Perm fields := by
  induction fields with
  | nil => exact .refl _
  | cons field rest ih => exact (insertByKey_perm field _).trans (ih.cons field)

theorem insertByKey_map (f : α → β) (field : String × α) (fields : List (String × α)) :
    insertByKey (field.1, f field.2) (fields.map fun field => (field.1, f field.2)) =
      (insertByKey field fields).map fun field => (field.1, f field.2) := by
  induction fields with
  | nil => rfl
  | cons other rest ih =>
    rw [List.map_cons, insertByKey, insertByKey, ih]
    split <;> rfl

/-- Sorting looks at the keys alone. -/
theorem sortedByKey_map (f : α → β) (fields : List (String × α)) :
    sortedByKey (fields.map fun field => (field.1, f field.2)) =
      (sortedByKey fields).map fun field => (field.1, f field.2) := by
  induction fields with
  | nil => rfl
  | cons field rest ih => exact (congrArg _ ih).trans (insertByKey_map f field _)

theorem sorted_arr (items : List Json) : sorted (.arr items) = .arr (items.map sorted) := by
  rw [sorted, sortedItems_eq_map]

theorem sorted_obj (fields : Fields) :
    sorted (.obj fields) =
      .obj ((sortedByKey fields).map fun field => (field.1, field.2.sorted)) := by
  rw [sorted, sortedFields_eq_map, sortedByKey_map]

theorem chars_obj (charset : Charset) (fields : Fields) :
    chars charset (.obj fields) =
      '\x7b' :: (commaSeparated (fields.map fun field =>
        fieldText charset field.1 (field.2.chars charset)) ++ ['\x7d']) := by
  rw [chars, fieldChars_eq_map]

theorem chars_arr (charset : Charset) (items : List Json) :
    chars charset (.arr items) =
      '[' :: (commaSeparated (items.map (chars charset)) ++ [']']) := by
  rw [chars, itemChars_eq_map]

/-- Sorting keeps values plain. -/
theorem Plain.sorted {v : Json} (hv : Plain v) : Plain v.sorted := by
  induction hv with
  | null => exact .null
  | bool value => exact .bool value
  | int value => exact .int value
  | str value => exact .str value
  | arr _ ih =>
    rw [sorted_arr]
    exact .arr (List.forall_mem_map.2 ih)
  | @obj fields distinct _ ih =>
    rw [sorted_obj]
    have perm := sortedByKey_perm fields
    refine .obj ?_ (List.forall_mem_map.2 fun field hf => ih field (perm.mem_iff.1 hf))
    rw [List.map_map]
    exact (perm.map Prod.fst).nodup_iff.2 distinct

/-- Equal sorted forms have equal fields, perhaps in another order. -/
theorem perm_of_sorted_obj_eq {fields fields' : Fields}
    (h : sorted (.obj fields) = sorted (.obj fields')) :
    (fields.map fun field => (field.1, field.2.sorted)).Perm
      (fields'.map fun field => (field.1, field.2.sorted)) := by
  rw [sorted_obj, sorted_obj, obj.injEq, ← sortedByKey_map, ← sortedByKey_map] at h
  exact (sortedByKey_perm _).symm.trans (h ▸ sortedByKey_perm _)

end SignedOrders.Json
