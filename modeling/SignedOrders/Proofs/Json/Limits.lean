import Mathlib.Order.Nat
import SignedOrders.Json.Limits
import SignedOrders.Proofs.Json.Reading

/-!
# Values within the limits of JSON texts

A value is `Within` limits if no more of its arrays and objects stand in one another
than they allow, and each of its integers is short enough.  A plain value can be written
just if it is within the limits, and read back then; otherwise the obstacle that is
reported tells what is wrong with it (`Plain.written_eq_ok_iff`, `Plain.holds_of_written`).

The order of fields matters to neither the nesting nor the integers, so it does not
matter that the canonical text has them in another order.
-/

namespace SignedOrders.Json

/-! ## Nesting and integers -/

mutual

/-- How many arrays and objects of a value stand in one another. -/
def depth : Json → Nat
  | .arr items => itemDepth items + 1
  | .obj fields => fieldDepth fields + 1
  | _ => 0

/-- The depth of the deepest item. -/
def itemDepth : List Json → Nat
  | [] => 0
  | v :: rest => max v.depth (itemDepth rest)

/-- The depth of the deepest value of a field. -/
def fieldDepth : List (String × Json) → Nat
  | [] => 0
  | (_, v) :: rest => max v.depth (fieldDepth rest)

end

@[simp] theorem depth_bool (value : Bool) : (bool value).depth = 0 := rfl

@[simp] theorem depth_int (value : Int) : (int value).depth = 0 := rfl

@[simp] theorem depth_str (value : String) : (str value).depth = 0 := rfl

mutual

/-- The integers in a value. -/
def integers : Json → List Int
  | .int n => [n]
  | .arr items => itemIntegers items
  | .obj fields => fieldIntegers fields
  | _ => []

/-- The integers in the items of an array. -/
def itemIntegers : List Json → List Int
  | [] => []
  | v :: rest => v.integers ++ itemIntegers rest

/-- The integers in the values of an object. -/
def fieldIntegers : List (String × Json) → List Int
  | [] => []
  | (_, v) :: rest => v.integers ++ fieldIntegers rest

end

@[simp] theorem integers_bool (value : Bool) : (bool value).integers = [] := rfl

@[simp] theorem integers_int (value : Int) : (int value).integers = [value] := rfl

@[simp] theorem integers_str (value : String) : (str value).integers = [] := rfl

/-- The value keeps the limits. -/
structure Within (limits : Limits) (v : Json) : Prop where
  shallow : v.depth ≤ limits.levels
  short : ∀ n ∈ v.integers, Decimal.width n.natAbs ≤ limits.digits

/-- What an obstacle says of a plain value: an integer is too long, or the value is nested too
deep. -/
def Obstacle.Holds (limits : Limits) (v : Json) : Obstacle → Prop
  | malformed => False
  | tooLong => ∃ n ∈ v.integers, limits.digits < Decimal.width n.natAbs
  | tooDeep => limits.levels < v.depth

/-- Nothing is said to stand in the way of a value within the limits. -/
theorem Obstacle.Holds.not_within {limits : Limits} {v : Json} {obstacle : Obstacle}
    (h : obstacle.Holds limits v) : ¬v.Within limits := by
  intro within
  cases obstacle with
  | malformed => exact h
  | tooLong =>
    obtain ⟨n, hn, long⟩ := h
    exact absurd (within.short n hn) (Nat.not_le.2 long)
  | tooDeep => exact absurd within.shallow (Nat.not_le.2 h)

variable {digits levels : Nat} {limits : Limits} {items : List Json} {fields : Fields} {v : Json}
  {n : Int}

theorem itemDepth_le_iff : itemDepth items ≤ levels ↔ ∀ v ∈ items, v.depth ≤ levels := by
  induction items with
  | nil => simp [itemDepth]
  | cons v rest ih => rw [itemDepth, Nat.max_le, ih, List.forall_mem_cons]

theorem fieldDepth_le_iff :
    fieldDepth fields ≤ levels ↔ ∀ field ∈ fields, field.2.depth ≤ levels := by
  induction fields with
  | nil => simp [fieldDepth]
  | cons field rest ih => rw [fieldDepth, Nat.max_le, ih, List.forall_mem_cons]

theorem depth_arr_le_iff : (arr items).depth ≤ levels + 1 ↔ ∀ v ∈ items, v.depth ≤ levels := by
  rw [depth, Nat.add_le_add_iff_right, itemDepth_le_iff]

theorem depth_obj_le_iff :
    (obj fields).depth ≤ levels + 1 ↔ ∀ field ∈ fields, field.2.depth ≤ levels := by
  rw [depth, Nat.add_le_add_iff_right, fieldDepth_le_iff]

theorem mem_integers_arr : n ∈ (arr items).integers ↔ ∃ v ∈ items, n ∈ v.integers := by
  rw [integers]
  induction items with
  | nil => simp [itemIntegers]
  | cons v rest ih => simp [itemIntegers, ih]

theorem mem_integers_obj :
    n ∈ (obj fields).integers ↔ ∃ field ∈ fields, n ∈ field.2.integers := by
  rw [integers]
  induction fields with
  | nil => simp [fieldIntegers]
  | cons field rest ih => simp [fieldIntegers, ih]

theorem within_arr_iff :
    (arr items).Within ⟨digits, levels + 1⟩ ↔ ∀ v ∈ items, v.Within ⟨digits, levels⟩ := by
  constructor
  · intro h v hv
    exact ⟨depth_arr_le_iff.1 h.shallow v hv,
      fun n hn => h.short n (mem_integers_arr.2 ⟨v, hv, hn⟩)⟩
  · intro h
    refine ⟨depth_arr_le_iff.2 fun v hv => (h v hv).shallow, fun n hn => ?_⟩
    obtain ⟨v, hv, hn⟩ := mem_integers_arr.1 hn
    exact (h v hv).short n hn

theorem within_obj_iff :
    (obj fields).Within ⟨digits, levels + 1⟩ ↔
      ∀ field ∈ fields, field.2.Within ⟨digits, levels⟩ := by
  constructor
  · intro h field hf
    exact ⟨depth_obj_le_iff.1 h.shallow field hf,
      fun n hn => h.short n (mem_integers_obj.2 ⟨field, hf, hn⟩)⟩
  · intro h
    refine ⟨depth_obj_le_iff.2 fun field hf => (h field hf).shallow, fun n hn => ?_⟩
    obtain ⟨field, hf, hn⟩ := mem_integers_obj.1 hn
    exact (h field hf).short n hn

/-- Leaving fields out keeps the limits. -/
theorem Within.of_subset {fields' : Fields} (h : (obj fields).Within limits)
    (sub : fields' ⊆ fields) : (obj fields').Within limits := by
  obtain ⟨digits, levels⟩ := limits
  cases levels with
  | zero => exact absurd h.shallow (Nat.not_succ_le_zero _)
  | succ levels => exact within_obj_iff.2 fun field hf => within_obj_iff.1 h field (sub hf)

/-- The value of a field keeps the limits of the object. -/
theorem Within.field {field : String × Json} (h : (obj fields).Within limits)
    (hf : field ∈ fields) : field.2.Within limits := by
  obtain ⟨digits, levels⟩ := limits
  cases levels with
  | zero => exact absurd h.shallow (Nat.not_succ_le_zero _)
  | succ levels =>
    obtain ⟨shallow, short⟩ := within_obj_iff.1 h field hf
    exact ⟨Nat.le_succ_of_le shallow, short⟩

/-! ## What stands in the way -/

theorem itemObstacle?_eq (digits levels : Nat) (items : List Json) :
    itemObstacle? digits levels items = items.findSome? (obstacle? digits levels) := by
  induction items with
  | nil => rfl
  | cons v rest ih =>
    rw [itemObstacle?, ih, List.findSome?_cons]
    cases v.obstacle? digits levels <;> rfl

theorem fieldObstacle?_eq (digits levels : Nat) (fields : Fields) :
    fieldObstacle? digits levels fields =
      fields.findSome? fun field => field.2.obstacle? digits levels := by
  induction fields with
  | nil => rfl
  | cons field rest ih =>
    rw [fieldObstacle?, ih, List.findSome?_cons]
    cases field.2.obstacle? digits levels <;> rfl

theorem Obstacle.Holds.arr {obstacle : Obstacle} (hv : v ∈ items)
    (h : obstacle.Holds ⟨digits, levels⟩ v) :
    obstacle.Holds ⟨digits, levels + 1⟩ (.arr items) := by
  cases obstacle with
  | malformed => exact h
  | tooLong =>
    obtain ⟨n, hn, long⟩ := h
    exact ⟨n, mem_integers_arr.2 ⟨v, hv, hn⟩, long⟩
  | tooDeep => exact Nat.not_le.1 fun shallow => Nat.not_le.2 h (depth_arr_le_iff.1 shallow v hv)

theorem Obstacle.Holds.obj {obstacle : Obstacle} {field : String × Json} (hf : field ∈ fields)
    (h : obstacle.Holds ⟨digits, levels⟩ field.2) :
    obstacle.Holds ⟨digits, levels + 1⟩ (.obj fields) := by
  cases obstacle with
  | malformed => exact h
  | tooLong =>
    obtain ⟨n, hn, long⟩ := h
    exact ⟨n, mem_integers_obj.2 ⟨field, hf, hn⟩, long⟩
  | tooDeep =>
    exact Nat.not_le.1 fun shallow => Nat.not_le.2 h (depth_obj_le_iff.1 shallow field hf)

/-- **An obstacle is what it says**, and without one the value is within the limits. -/
theorem Plain.obstacle?_spec (hv : Plain v) (digits levels : Nat) :
    (v.obstacle? digits levels = none → v.Within ⟨digits, levels⟩) ∧
      ∀ obstacle, v.obstacle? digits levels = some obstacle →
        obstacle.Holds ⟨digits, levels⟩ v := by
  induction hv generalizing levels with
  | null => exact ⟨fun _ => ⟨Nat.zero_le _, by simp [integers]⟩, by simp [obstacle?]⟩
  | bool => exact ⟨fun _ => ⟨Nat.zero_le _, by simp [integers]⟩, by simp [obstacle?]⟩
  | str => exact ⟨fun _ => ⟨Nat.zero_le _, by simp [integers]⟩, by simp [obstacle?]⟩
  | int n =>
    rw [obstacle?]
    split
    · next short => exact ⟨fun _ => ⟨Nat.zero_le _, by simpa [integers] using short⟩, by simp⟩
    · next long =>
      refine ⟨by simp, ?_⟩
      rintro _ ⟨⟩
      exact ⟨n, List.mem_singleton_self n, Nat.not_le.1 long⟩
  | @arr items _ ih =>
    cases levels with
    | zero =>
      refine ⟨by simp [obstacle?], ?_⟩
      rintro _ ⟨⟩
      exact Nat.succ_pos _
    | succ levels =>
      rw [obstacle?, itemObstacle?_eq]
      constructor
      · intro none
        exact within_arr_iff.2 fun v hv =>
          (ih v hv levels).1 (List.findSome?_eq_none_iff.1 none v hv)
      · intro obstacle found
        obtain ⟨v, hv, found⟩ := List.exists_of_findSome?_eq_some found
        exact .arr hv ((ih v hv levels).2 obstacle found)
  | @obj fields _ _ ih =>
    cases levels with
    | zero =>
      refine ⟨by simp [obstacle?], ?_⟩
      rintro _ ⟨⟩
      exact Nat.succ_pos _
    | succ levels =>
      rw [obstacle?, fieldObstacle?_eq]
      constructor
      · intro none
        exact within_obj_iff.2 fun field hf =>
          (ih field hf levels).1 (List.findSome?_eq_none_iff.1 none field hf)
      · intro obstacle found
        obtain ⟨field, hf, found⟩ := List.exists_of_findSome?_eq_some found
        exact .obj hf ((ih field hf levels).2 obstacle found)

/-- Nothing stands in the way of a plain value just if it is within the limits. -/
theorem Plain.obstacle?_eq_none_iff (hv : Plain v) :
    v.obstacle? limits.digits limits.levels = none ↔ v.Within limits := by
  obtain ⟨clear, blamed⟩ := hv.obstacle?_spec limits.digits limits.levels
  refine ⟨clear, fun within => ?_⟩
  cases found : v.obstacle? limits.digits limits.levels with
  | none => rfl
  | some obstacle => exact absurd within (blamed obstacle found).not_within

/-! ## Sorting -/

/-- Sorting keeps the nesting. -/
theorem Plain.depth_sorted (hv : Plain v) : v.sorted.depth = v.depth := by
  induction hv with
  | null => rfl
  | bool => rfl
  | int => rfl
  | str => rfl
  | @arr items _ ih =>
    rw [sorted_arr, depth, depth]
    refine congrArg (· + 1) (eq_of_forall_ge_iff fun levels => ?_)
    rw [itemDepth_le_iff, itemDepth_le_iff, List.forall_mem_map]
    exact forall₂_congr fun v hv => by rw [ih v hv]
  | @obj fields _ _ ih =>
    rw [sorted_obj, depth, depth]
    refine congrArg (· + 1) (eq_of_forall_ge_iff fun levels => ?_)
    rw [fieldDepth_le_iff, fieldDepth_le_iff, List.forall_mem_map]
    simp only [(sortedByKey_perm fields).mem_iff]
    exact forall₂_congr fun field hf => by rw [ih field hf]

/-- Sorting keeps the integers. -/
theorem Plain.mem_integers_sorted (hv : Plain v) : n ∈ v.sorted.integers ↔ n ∈ v.integers := by
  induction hv with
  | null => rfl
  | bool => rfl
  | int => rfl
  | str => rfl
  | @arr items _ ih =>
    rw [sorted_arr, mem_integers_arr, mem_integers_arr]
    simp only [List.mem_map, exists_exists_and_eq_and]
    exact exists_congr fun v => and_congr_right fun hv => ih v hv
  | @obj fields _ _ ih =>
    rw [sorted_obj, mem_integers_obj, mem_integers_obj]
    simp only [List.mem_map, exists_exists_and_eq_and, (sortedByKey_perm fields).mem_iff]
    exact exists_congr fun field => and_congr_right fun hf => ih field hf

theorem Plain.within_sorted_iff (hv : Plain v) : v.sorted.Within limits ↔ v.Within limits := by
  have integers : (∀ n ∈ v.sorted.integers, Decimal.width n.natAbs ≤ limits.digits) ↔
      ∀ n ∈ v.integers, Decimal.width n.natAbs ≤ limits.digits :=
    forall_congr' fun n => by rw [hv.mem_integers_sorted]
  exact ⟨fun h => ⟨hv.depth_sorted ▸ h.shallow, integers.1 h.short⟩,
    fun h => ⟨hv.depth_sorted.symm ▸ h.shallow, integers.2 h.short⟩⟩

theorem Obstacle.Holds.of_sorted {obstacle : Obstacle} (hv : Plain v)
    (h : obstacle.Holds limits v.sorted) : obstacle.Holds limits v := by
  cases obstacle with
  | malformed => exact h
  | tooLong =>
    obtain ⟨n, hn, long⟩ := h
    exact ⟨n, hv.mem_integers_sorted.1 hn, long⟩
  | tooDeep => exact h.trans_eq hv.depth_sorted

/-! ## Writing and reading back -/

theorem Obstacle.before_eq_ok {found : Option Obstacle} {r a : α} :
    Obstacle.before found r = .ok a ↔ found = none ∧ r = a := by
  cases found <;> simp [Obstacle.before]

theorem Obstacle.before_eq_error {found : Option Obstacle} {r : α} {obstacle : Obstacle} :
    Obstacle.before found r = .error obstacle ↔ found = some obstacle := by
  cases found <;> simp [Obstacle.before]

/-- **A plain value has a canonical text just if it is within the limits.** -/
theorem Plain.written_eq_ok_iff (hv : Plain v) {text : String} :
    v.written limits = .ok text ↔ v.Within limits ∧ v.render = text := by
  rw [written, Obstacle.before_eq_ok, hv.sorted.obstacle?_eq_none_iff, hv.within_sorted_iff]

/-- What keeps a plain value from being written is what the obstacle says. -/
theorem Plain.holds_of_written {obstacle : Obstacle} (hv : Plain v)
    (h : v.written limits = .error obstacle) : obstacle.Holds limits v :=
  .of_sorted hv ((hv.sorted.obstacle?_spec _ _).2 obstacle (Obstacle.before_eq_error.1 h))

theorem areRepresentable_iff (items : List Json) :
    areRepresentable items = true ↔ ∀ v ∈ items, v.isRepresentable = true := by
  induction items with
  | nil => simp [areRepresentable]
  | cons v rest ih =>
    rw [areRepresentable, Bool.and_eq_true, ih, List.forall_mem_cons]

theorem haveText_iff (fields : Fields) :
    haveText fields = true ↔ ∀ field ∈ fields, field.2.isRepresentable = true := by
  induction fields with
  | nil => simp [haveText]
  | cons field rest ih =>
    rw [haveText, Bool.and_eq_true, ih, List.forall_mem_cons]

theorem Plain.isRepresentable (hv : Plain v) : v.isRepresentable = true := by
  induction hv with
  | null => rfl
  | bool => rfl
  | int => rfl
  | str => rfl
  | arr _ ih => exact (areRepresentable_iff _).2 ih
  | obj _ _ ih => exact (haveText_iff _).2 ih

theorem Plain.reread_eq (hv : Plain v) (limits : Limits) :
    v.reread limits = Obstacle.before (v.obstacle? limits.digits limits.levels) v := by
  rw [reread, if_pos hv.isRepresentable, readWithin, readChars?_chars hv]

/-- **A plain value is read back from its text just if it is within the limits**, and it is the
same then. -/
theorem Plain.reread_eq_ok_iff (hv : Plain v) {w : Json} :
    v.reread limits = .ok w ↔ v.Within limits ∧ v = w := by
  rw [hv.reread_eq, Obstacle.before_eq_ok, hv.obstacle?_eq_none_iff]

/-- What keeps a plain value from being read back is what the obstacle says. -/
theorem Plain.holds_of_reread {obstacle : Obstacle} (hv : Plain v)
    (h : v.reread limits = .error obstacle) : obstacle.Holds limits v :=
  (hv.obstacle?_spec _ _).2 obstacle (Obstacle.before_eq_error.1 (hv.reread_eq limits ▸ h))

end SignedOrders.Json
