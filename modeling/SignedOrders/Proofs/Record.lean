import SignedOrders.Payload
import SignedOrders.Proofs.Json.Sorted

/-!
# Records with optional fields

A record is written as the object of those fields that have a value.  Nothing is lost
by leaving the others out: when the names of its fields are different, the value of each
field, or that it has none, is found under its name, and two records with the same
names and equal objects agree in every field (`values_eq_of_sorted_record_eq`).
-/

namespace SignedOrders

/-! ## Fields with different keys -/

namespace Json.Fields

variable {fields fields' : Fields} {key : String}

theorem get?_eq_none (h : key ∉ fields.map Prod.fst) : get? fields key = none := by
  rw [get?, List.find?_eq_none.2, Option.map_none]
  intro field hf
  rw [beq_iff_eq]
  rintro rfl
  exact h (List.mem_map_of_mem hf)

theorem mem_of_get?_eq_some {v : Json} (h : get? fields key = some v) : (key, v) ∈ fields := by
  obtain ⟨field, hfind, rfl⟩ := Option.map_eq_some_iff.1 h
  have hkey := List.find?_some hfind
  rw [beq_iff_eq] at hkey
  subst hkey
  exact List.mem_of_find?_eq_some hfind

/-- Each field of an object with different keys is found. -/
theorem get?_eq_some_iff (distinct : (fields.map Prod.fst).Nodup) {v : Json} :
    get? fields key = some v ↔ (key, v) ∈ fields := by
  refine ⟨mem_of_get?_eq_some, fun h => ?_⟩
  induction fields with
  | nil => cases h
  | cons field fields ih =>
    rw [List.map_cons, List.nodup_cons] at distinct
    rw [get?_cons]
    rcases List.mem_cons.1 h with rfl | h
    · rw [if_pos (beq_self_eq_true _)]
    · rw [if_neg, ih distinct.2 h]
      rw [beq_iff_eq]
      intro same
      exact distinct.1 (same ▸ List.mem_map_of_mem h)

/-- The order of fields does not matter for finding them. -/
theorem get?_perm (h : fields.Perm fields') (distinct : (fields.map Prod.fst).Nodup) :
    get? fields key = get? fields' key := by
  have distinct' : (fields'.map Prod.fst).Nodup := (h.map Prod.fst).nodup_iff.1 distinct
  ext v
  rw [get?_eq_some_iff distinct, get?_eq_some_iff distinct', h.mem_iff]

theorem get?_map (f : Json → Json) (fields : Fields) :
    get? (fields.map fun field => (field.1, f field.2)) key = (get? fields key).map f := by
  induction fields with
  | nil => rfl
  | cons field fields ih =>
    rw [List.map_cons, get?_cons, get?_cons, ih]
    split <;> rfl

/-- Objects with the same sorted form have the same fields. -/
theorem get?_eq_of_sorted_eq (distinct : (fields.map Prod.fst).Nodup)
    (h : sorted (.obj fields) = sorted (.obj fields')) (key : String) :
    (get? fields key).map sorted = (get? fields' key).map sorted := by
  rw [← get?_map, ← get?_map]
  refine get?_perm (perm_of_sorted_obj_eq h) ?_
  rw [List.map_map]
  exact distinct

end Json.Fields

/-! ## The fields of a record -/

/-- The fields that have a value, under their names. -/
def present (naming : Naming) (fields : List (String × Option Json)) : Json.Fields :=
  fields.filterMap fun field => field.2.map fun v => (naming.key field.1, v)

theorem record_eq (naming : Naming) (fields : List (String × Option Json)) :
    record naming fields = .obj (present naming fields) := rfl

theorem present_cons_none (naming : Naming) (name : String) (fields : List (String × Option Json)) :
    present naming ((name, none) :: fields) = present naming fields := rfl

theorem present_cons_some (naming : Naming) (name : String) (v : Json)
    (fields : List (String × Option Json)) :
    present naming ((name, some v) :: fields) = (naming.key name, v) :: present naming fields := rfl

/-- The keys that the fields of a record have if all of them have a value. -/
def keys (naming : Naming) (fields : List (String × Option Json)) : List String :=
  fields.map fun field => naming.key field.1

theorem mem_present {naming : Naming} {fields : List (String × Option Json)} {key : String}
    {v : Json} :
    (key, v) ∈ present naming fields ↔ ∃ name, (name, some v) ∈ fields ∧ naming.key name = key := by
  rw [present, List.mem_filterMap]
  constructor
  · rintro ⟨⟨name, value⟩, hf, hv⟩
    obtain ⟨u, rfl, he⟩ := Option.map_eq_some_iff.1 hv
    cases he
    exact ⟨name, hf, rfl⟩
  · rintro ⟨name, hf, rfl⟩
    exact ⟨_, hf, rfl⟩

theorem present_keys_sublist (naming : Naming) (fields : List (String × Option Json)) :
    ((present naming fields).map Prod.fst).Sublist (keys naming fields) := by
  induction fields with
  | nil => exact .slnil
  | cons field fields ih =>
    obtain ⟨name, value⟩ := field
    cases value with
    | none => exact ih.cons _
    | some v => exact ih.cons_cons _

section Distinct

variable {naming : Naming} {fields : List (String × Option Json)}
  (distinct : (keys naming fields).Nodup)
include distinct

theorem present_distinct : ((present naming fields).map Prod.fst).Nodup :=
  (present_keys_sublist naming fields).nodup distinct

/-- Two fields with one key are one field. -/
theorem value_eq_of_key_eq {name name' : String} {value value' : Option Json}
    (h : (name, value) ∈ fields) (h' : (name', value') ∈ fields)
    (same : naming.key name = naming.key name') : value = value' := by
  induction fields with
  | nil => cases h
  | cons field fields ih =>
    rw [keys, List.map_cons, List.nodup_cons] at distinct
    have notLater {name value} (hm : (name, value) ∈ fields)
        (he : naming.key field.1 = naming.key name) : False :=
      distinct.1 (he ▸ List.mem_map_of_mem (f := fun field => naming.key field.1) hm)
    rcases List.mem_cons.1 h with rfl | later <;> rcases List.mem_cons.1 h' with heq | later'
    · exact (Prod.ext_iff.1 heq).2.symm
    · exact (notLater later' same).elim
    · subst heq
      exact (notLater later same.symm).elim
    · exact ih distinct.2 later later'

/-- **A field is found under its name** with its value, if it has one. -/
theorem get?_present {name : String} {value : Option Json} (h : (name, value) ∈ fields) :
    (present naming fields).get? (naming.key name) = value := by
  ext v
  rw [Json.Fields.get?_eq_some_iff (present_distinct distinct), mem_present]
  constructor
  · rintro ⟨name', h', same⟩
    rw [value_eq_of_key_eq distinct h h' same.symm]
  · rintro rfl
    exact ⟨name, h, rfl⟩

theorem plain_record (plain : ∀ field ∈ fields, ∀ v ∈ field.2, Json.Plain v) :
    Json.Plain (record naming fields) := by
  refine .obj (present_distinct distinct) ?_
  rintro ⟨key, v⟩ h
  obtain ⟨name, hf, -⟩ := mem_present.1 h
  exact plain _ hf v rfl

/-- **Records with the same names that are written alike agree in every field.** -/
theorem values_eq_of_sorted_record_eq (fields' : List (String × Option Json))
    (names : fields.map Prod.fst = fields'.map Prod.fst)
    (h : (record naming fields).sorted = (record naming fields').sorted) :
    fields.map (fun field => field.2.map Json.sorted) =
      fields'.map fun field => field.2.map Json.sorted := by
  have keys_eq : keys naming fields = keys naming fields' := by
    have := congrArg (List.map naming.key) names
    rwa [List.map_map, List.map_map] at this
  have length : fields.length = fields'.length := by
    simpa only [List.length_map] using congrArg List.length names
  refine List.ext_getElem (by rw [List.length_map, List.length_map, length]) fun i hi hi' => ?_
  rw [List.length_map] at hi hi'
  have name : fields[i].1 = fields'[i].1 := by
    have := List.getElem_of_eq names (i := i) (by rwa [List.length_map])
    rwa [List.getElem_map, List.getElem_map] at this
  rw [List.getElem_map, List.getElem_map]
  have found := get?_present distinct (List.getElem_mem hi)
  have found' := get?_present (keys_eq ▸ distinct) (List.getElem_mem hi')
  rw [List.get_eq_getElem] at found found'
  rw [← found, ← found', name]
  exact Json.Fields.get?_eq_of_sorted_eq (present_distinct distinct) h _

end Distinct

/-- Leaving keys out of the object of a record leaves fields out of the record. -/
theorem without_present (naming : Naming) (fields : List (String × Option Json))
    (excluded : List String) :
    (present naming fields).without excluded =
      present naming (fields.filter fun field => !excluded.contains (naming.key field.1)) := by
  induction fields with
  | nil => rfl
  | cons field fields ih =>
    obtain ⟨name, value⟩ := field
    rw [Json.Fields.without] at ih ⊢
    rw [List.filter_cons]
    cases value with
    | none =>
      rw [present_cons_none, ih]
      split <;> rfl
    | some v =>
      rw [present_cons_some, List.filter_cons, ih]
      split <;> rfl

end SignedOrders
