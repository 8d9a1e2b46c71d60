import SignedOrders.Proofs.Canonical

/-!
# From the wire back to the canonical text

On the wire the names of fields have inner capitals.  The words of such a name are found
again, so that the canonical text of an order can be made from what is posted alone:
its signatures of fill orders are taken out, every name at every depth is restored, and
the rest is written in order (`ofPosted_wire`).
-/

namespace SignedOrders

/-! ## Names -/

namespace Naming

/-- A word with inner capitals as words joined by underscores. -/
def splitWords : List Char → List Char
  | [] => []
  | c :: rest => if c.isUpper then '_' :: c.toLower :: splitWords rest else c :: splitWords rest

/-- The name of a field whose key on the wire is `key`. -/
def restore (key : String) : String := String.ofList (splitWords key.toList)

/-- The name has no capitals, and each underscore is followed by a letter. -/
def isRestorable : List Char → Bool
  | [] => true
  | '_' :: c :: rest => c.toUpper.isUpper && c.toUpper.toLower == c && isRestorable rest
  | c :: rest => !c.isUpper && isRestorable rest

theorem splitWords_joinWords {s : List Char} (h : isRestorable s = true) :
    splitWords (joinWords s) = s := by
  induction s using joinWords.induct with
  | case1 => rfl
  | case2 c rest ih =>
    simp only [isRestorable, Bool.and_eq_true, beq_iff_eq] at h
    obtain ⟨⟨upper, same⟩, h⟩ := h
    rw [joinWords, splitWords, if_pos upper, same, ih h]
  | case3 c rest hc ih =>
    rw [isRestorable.eq_3 c rest hc, Bool.and_eq_true, Bool.not_eq_true'] at h
    rw [joinWords.eq_3 c rest hc, splitWords, if_neg (by rw [h.1]; decide), ih h.2]

/-- **A name is restored from its key on the wire.** -/
theorem restore_key {name : String} (h : isRestorable name.toList = true) :
    restore (wire.key name) = name := by
  rw [restore, key, String.toList_ofList, splitWords_joinWords h, String.ofList_toList]

end Naming

/-! ## Values -/

namespace Json

mutual

/-- The value with the key of every field of every object changed. -/
def renamed (f : String → String) : Json → Json
  | .arr items => .arr (renamedItems f items)
  | .obj fields => .obj (renamedFields f fields)
  | v => v

/-- The items of an array with their keys changed. -/
def renamedItems (f : String → String) : List Json → List Json
  | [] => []
  | v :: rest => v.renamed f :: renamedItems f rest

/-- The fields of an object with all keys changed. -/
def renamedFields (f : String → String) : Fields → Fields
  | [] => []
  | (key, v) :: rest => (f key, v.renamed f) :: renamedFields f rest

end

theorem renamedFields_eq_map (f : String → String) (fields : Fields) :
    renamedFields f fields = fields.map fun field => (f field.1, field.2.renamed f) := by
  induction fields with
  | nil => rfl
  | cons field rest ih => rw [renamedFields, ih, List.map_cons]

end Json

/-- A record is restored if all its names are. -/
theorem renamed_record (fields : List (String × Option Json))
    (h : (fields.all fun field => Naming.isRestorable field.1.toList) = true) :
    (record .wire fields).renamed Naming.restore =
      record .canonical
        (fields.map fun field => (field.1, field.2.map (Json.renamed Naming.restore))) := by
  rw [record_eq, record_eq, Json.renamed, Json.renamedFields_eq_map]
  congr 1
  induction fields with
  | nil => rfl
  | cons field fields ih =>
    obtain ⟨name, value⟩ := field
    rw [List.all_cons, Bool.and_eq_true] at h
    cases value with
    | none =>
      rw [present_cons_none, ih h.2, List.map_cons, Option.map_none, present_cons_none]
    | some v =>
      rw [present_cons_some, List.map_cons, ih h.2, List.map_cons, Option.map_some,
        present_cons_some, Naming.restore_key h.1, Naming.key]

theorem CurrencyAmount.renamed (a : CurrencyAmount) :
    (toJson .wire a).renamed Naming.restore = toJson .canonical a :=
  renamed_record [("amount", some (.str a.amount)), ("currency", some (.str a.currency))]
    (by simp only [List.all_cons]; decide)

theorem CurrencyPrice.renamed (p : CurrencyPrice) :
    (toJson .wire p).renamed Naming.restore = toJson .canonical p :=
  renamed_record [("amount", some (.str p.amount)),
    ("currency_a", some (.str p.currencyA)), ("currency_b", some (.str p.currencyB))]
    (by simp only [List.all_cons]; decide)

@[simp] theorem renamed_str? (f : String → String) (s : Option String) :
    s.map (Json.renamed f ∘ Json.str) = s.map Json.str := by
  cases s <;> rfl

@[simp] theorem renamed_int? (f : String → String) (n : Option Int) :
    n.map (Json.renamed f ∘ Json.int) = n.map Json.int := by
  cases n <;> rfl

/-! ## Orders as they are posted -/

namespace Canonical

/-- The canonical text of an order, made from its payload as it is posted. -/
def ofPosted (operation : String) (wire : Json) : Option String :=
  match wire with
  | .obj fields =>
    let bare := Json.obj (Json.Fields.without fields ["blockchainSignatures"])
    let restored := bare.renamed Naming.restore
    if restored.isRepresentable then some (operation ++ "," ++ restored.render) else none
  | _ => none

end Canonical

namespace AnyPosting

/-- The payload of an order as it is posted. -/
def wirePayload : AnyPosting → Json
  | limit posting => toJson .wire posting.payload
  | market posting => toJson .wire posting.payload

/-- The fields of the payload of an order as it is posted. -/
def wireFields : AnyPosting → List (String × Option Json)
  | limit posting => posting.payload.fields .wire
  | market posting => posting.payload.fields .wire

theorem wireFields_restorable (v : AnyPosting) :
    (v.wireFields.all fun field => Naming.isRestorable field.1.toList) = true := by
  cases v with
  | limit posting =>
    simp only [wireFields, LimitPayload.fields, List.all_cons, List.all_nil]
    decide
  | market posting =>
    simp only [wireFields, MarketPayload.fields, List.all_cons, List.all_nil]
    decide

/-- The key of the signatures on the wire is that of no other field. -/
theorem bareFields_eq (v : AnyPosting) :
    (v.wireFields.filter fun field =>
      !(["blockchainSignatures"].contains (Naming.wire.key field.1))) =
      Canonical.coveredFields v.wireFields := by
  refine List.filter_congr fun field hf => ?_
  -- a name is told from its key, so no other field has the key of the signatures
  have restorable := List.all_eq_true.1 v.wireFields_restorable field hf
  have same : Naming.wire.key field.1 = Naming.wire.key signaturesField ↔
      field.1 = signaturesField := by
    refine ⟨fun h => ?_, congrArg _⟩
    rw [← Naming.restore_key restorable, h, Naming.restore_key (by decide)]
  have key : Naming.wire.key signaturesField = "blockchainSignatures" := by decide
  rw [key] at same
  simp [same]

theorem restored_fields (v : AnyPosting) :
    ((Canonical.coveredFields v.wireFields).map fun field =>
      (field.1, field.2.map (Json.renamed Naming.restore))) = v.coveredFields := by
  cases v with
  | limit posting =>
    simp [wireFields, coveredFields, Canonical.coveredFields, LimitPayload.fields, signaturesField,
      CurrencyAmount.renamed, CurrencyPrice.renamed, Json.renamed]
  | market posting =>
    simp [wireFields, coveredFields, Canonical.coveredFields, MarketPayload.fields, signaturesField,
      CurrencyAmount.renamed, Json.renamed]

/-- **The text of an order is made again from its payload as it is posted.** -/
theorem ofPosted_wirePayload (op : Placing) (v : AnyPosting) :
    Canonical.ofPosted op.name v.wirePayload = some (op.name ++ "," ++ v.body.render) := by
  have wire : v.wirePayload = .obj (present .wire v.wireFields) := by cases v <;> rfl
  have restorable : ((Canonical.coveredFields v.wireFields).all fun field =>
      Naming.isRestorable field.1.toList) = true :=
    List.all_eq_true.2 fun field hf =>
      List.all_eq_true.1 v.wireFields_restorable field (List.mem_filter.1 hf).1
  rw [wire, Canonical.ofPosted]
  simp only [without_present, bareFields_eq]
  rw [← record_eq, renamed_record _ restorable, restored_fields, ← body,
    if_pos v.body_plain.isRepresentable]

end AnyPosting

end SignedOrders
