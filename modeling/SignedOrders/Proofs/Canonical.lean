import SignedOrders.Canonical
import SignedOrders.Proofs.Payload

/-!
# What the signature of a request protects

A request is signed over the canonical text of its payload.  The text tells the
operation, the kind of the order and every field of the payload but the signatures of
the fill orders (`text_eq_iff`): one signature is never valid for two different orders.
The signature itself, the affiliate and the signatures of the fill orders lie outside
of it.

A posting has a text just if it is within the limits of JSON texts, and it is said of the
others what stands in the way (`Ends`, `Ends.exists_text_iff`).  No posting is nested deeper
than four levels, so where four are allowed this can only be an integer with too many digits
(`within_tree_iff`).
-/

namespace SignedOrders

open Json (Plain)

theorem Json.Plain.without {fields : Json.Fields} (h : Plain (.obj fields)) (names : List String) :
    Plain (.obj (fields.without names)) := by
  cases h with
  | obj distinct plain =>
    exact .obj (distinct.sublist (List.filter_sublist.map _))
      fun field hf => plain field (List.mem_filter.1 hf).1

namespace Canonical

variable {limits : Json.Limits}

/-! ## How the making of a text ends -/

/-- How the making of a text ends that shows `v`: with a text if `v` is within the limits, and
otherwise with the failure by `cause` for an integer that is too long, or with that of values
that are nested too deep. -/
inductive Ends (limits : Json.Limits) (cause : Cause) (v : Json) : Except Failure String → Prop
  | text (text : String) (within : v.Within limits) : Ends limits cause v (.ok text)
  | tooLong (n : Int) (h : n ∈ v.integers) (long : limits.digits < Decimal.width n.natAbs) :
      Ends limits cause v (.error (.of cause))
  | tooDeep (deep : limits.levels < v.depth) : Ends limits cause v (.error (.of .nestedTooDeep))

theorem ends_obstructed {v : Json} {obstacle : Json.Obstacle} (h : obstacle.Holds limits v)
    (cause : Cause) : Ends limits cause v (.error (obstructed cause obstacle)) := by
  cases obstacle with
  | malformed => exact h.elim
  | tooLong =>
    obtain ⟨n, hn, long⟩ := h
    exact .tooLong n hn long
  | tooDeep => exact .tooDeep h

/-- There is a text just if what it shows is within the limits. -/
theorem Ends.exists_text_iff {cause : Cause} {v : Json} {outcome : Except Failure String}
    (h : Ends limits cause v outcome) : (∃ text, outcome = .ok text) ↔ v.Within limits := by
  cases h with
  | text text within => exact ⟨fun _ => within, fun _ => ⟨text, rfl⟩⟩
  | tooLong n hn long =>
    have holds : Json.Obstacle.tooLong.Holds limits v := ⟨n, hn, long⟩
    exact ⟨nofun, fun within => absurd within holds.not_within⟩
  | tooDeep deep =>
    have holds : Json.Obstacle.tooDeep.Holds limits v := deep
    exact ⟨nofun, fun within => absurd within holds.not_within⟩

/-! ## The text of a plain payload -/

variable {posting : Json} {fields : Json.Fields}

/-- The part of a payload that its text tells. -/
def told (fields : Json.Fields) (excluded : List String) : Json :=
  .obj (fields.without (signaturesField :: excluded))

theorem told_plain (plain : Plain (.obj fields)) (excluded : List String) :
    Plain (told fields excluded) := plain.without _

theorem ofPayload_eq (found : posting.get? "payload" = some (.obj fields))
    (operation : String) (excluded : List String) :
    ofPayload limits operation posting excluded =
      match (told fields excluded).written limits with
      | .ok body => .ok (operation ++ "," ++ body)
      | .error obstacle => .error (obstructed (.payloadNotJson operation) obstacle) := by
  simp only [ofPayload, found]
  rfl

theorem ofPayload_eq_ok_iff (found : posting.get? "payload" = some (.obj fields))
    (plain : Plain (.obj fields)) {operation text : String} {excluded : List String} :
    ofPayload limits operation posting excluded = .ok text ↔
      (told fields excluded).Within limits ∧
        operation ++ "," ++ (told fields excluded).render = text := by
  rw [ofPayload_eq found]
  cases written : (told fields excluded).written limits with
  | ok body =>
    obtain ⟨within, rfl⟩ := (told_plain plain excluded).written_eq_ok_iff.1 written
    simp [within]
  | error obstacle =>
    have blocked := ((told_plain plain excluded).holds_of_written written).not_within
    simp [blocked]

/-- The fields of a payload that its text covers. -/
def coveredFields (fields : List (String × Option Json)) : List (String × Option Json) :=
  fields.filter fun field => !([signaturesField].contains field.1)

theorem without_signatures (fields : List (String × Option Json)) :
    (present .canonical fields).without [signaturesField] =
      present .canonical (coveredFields fields) :=
  without_present ..

theorem told_present (fields : List (String × Option Json)) :
    told (present .canonical fields) [] = record .canonical (coveredFields fields) := by
  rw [told, without_signatures, record_eq]

/-- A plain posting is read back before its text is made, if it is within the limits. -/
theorem ofTree_eq_ok_iff (plain : Plain posting) {operation text : String}
    {excluded : List String} :
    ofTree limits operation posting excluded = .ok text ↔
      posting.Within limits ∧ ofPayload limits operation posting excluded = .ok text := by
  rw [ofTree]
  cases back : posting.reread limits with
  | ok again =>
    obtain ⟨within, rfl⟩ := plain.reread_eq_ok_iff.1 back
    simp [within]
  | error obstacle =>
    have blocked := (plain.holds_of_reread back).not_within
    simp [blocked]

section Posting

variable [Wire π] {posting : Posting π} {fields : List (String × Option Json)}
  (hpayload : toJson .canonical posting.payload = record .canonical fields)
  (hplain : Plain (toJson .canonical posting.payload))

theorem mem_payload (posting : Posting π) :
    ("payload", toJson .canonical posting.payload) ∈ present .canonical
      [("payload", some (toJson .canonical posting.payload)),
        ("signature", some (toJson .canonical posting.signature)),
        ("affiliate", posting.affiliate.map Json.str)] := by
  simp [present_cons_some, Naming.key]

include hpayload

theorem get?_payload :
    (toJson .canonical posting).get? "payload" = some (.obj (present .canonical fields)) := by
  rw [← record_eq, ← hpayload]
  exact get?_present (Posting.distinct .canonical ..) (List.mem_cons_self ..)

/-- The covered fields are within the limits if the posting is. -/
theorem told_within (within : (toJson .canonical posting).Within limits) :
    (told (present .canonical fields) []).Within limits := by
  have payload : (Json.obj (present .canonical fields)).Within limits :=
    record_eq .canonical fields ▸ hpayload ▸ within.field (mem_payload posting)
  exact payload.of_subset List.filter_sublist.subset

include hplain

/-- **A plain posting has a canonical text just if it is within the limits**: the name of the
operation and the fields that are covered. -/
theorem ofPosting_eq_ok_iff {operation text : String} :
    ofPosting limits operation posting [] = .ok text ↔
      (toJson .canonical posting).Within limits ∧
        operation ++ "," ++ (record .canonical (coveredFields fields)).render = text := by
  have plain : Plain (.obj (present .canonical fields)) := by rwa [hpayload, record_eq] at hplain
  rw [ofPosting, ofTree_eq_ok_iff (Posting.plain _ posting hplain),
    ofPayload_eq_ok_iff (get?_payload hpayload) plain, ← told_present]
  exact and_congr_right fun within => and_iff_right (told_within hpayload within)

theorem ofPosting_ends (operation : String) :
    Ends limits (.notCanonical operation) (toJson .canonical posting)
      (ofPosting limits operation posting []) := by
  have plain := Posting.plain .canonical posting hplain
  cases back : (toJson .canonical posting).reread limits with
  | ok again =>
    have within := (plain.reread_eq_ok_iff.1 back).1
    rw [(ofPosting_eq_ok_iff hpayload hplain).2 ⟨within, rfl⟩]
    exact .text _ within
  | error obstacle =>
    rw [ofPosting, ofTree, back]
    exact ends_obstructed (plain.holds_of_reread back) _

omit hplain

include hplain

end Posting

end Canonical

/-! ## Values that are written alike -/

section Alike

variable {naming : Naming}

@[simp] theorem map_sorted_str_inj {s t : Option String} :
    s.map (Json.sorted ∘ Json.str) = t.map (Json.sorted ∘ Json.str) ↔ s = t := by
  cases s <;> cases t <;> simp [Json.sorted]

@[simp] theorem map_sorted_int_inj {m n : Option Int} :
    m.map (Json.sorted ∘ Json.int) = n.map (Json.sorted ∘ Json.int) ↔ m = n := by
  cases m <;> cases n <;> simp [Json.sorted]

@[simp] theorem Direction.name_inj {d e : Direction} : d.name = e.name ↔ d = e := by
  refine ⟨fun h => ?_, congrArg name⟩
  exact Option.some.inj (by rw [← ofName?_name d, ← ofName?_name e, h])

@[simp] theorem PolicyKind.name_inj {k l : PolicyKind} : k.name = l.name ↔ k = l := by
  refine ⟨fun h => ?_, congrArg name⟩
  exact Option.some.inj (by rw [← ofName?_name k, ← ofName?_name l, h])

@[simp] theorem CurrencyAmount.sorted_inj {a b : CurrencyAmount} :
    (toJson naming a).sorted = (toJson naming b).sorted ↔ a = b := by
  refine ⟨fun h => ?_, congrArg fun c => (toJson naming c).sorted⟩
  have values := values_eq_of_sorted_record_eq
    (CurrencyAmount.distinct naming (some (.str a.amount)) (some (.str a.currency)))
    [("amount", some (.str b.amount)), ("currency", some (.str b.currency))] rfl h
  cases a
  cases b
  simpa [Json.sorted] using values

@[simp] theorem CurrencyPrice.sorted_inj {p q : CurrencyPrice} :
    (toJson naming p).sorted = (toJson naming q).sorted ↔ p = q := by
  refine ⟨fun h => ?_, congrArg fun r => (toJson naming r).sorted⟩
  have values := values_eq_of_sorted_record_eq (CurrencyPrice.distinct naming (some (.str p.amount))
    (some (.str p.currencyA)) (some (.str p.currencyB)))
    [("amount", some (.str q.amount)), ("currency_a", some (.str q.currencyA)),
      ("currency_b", some (.str q.currencyB))] rfl h
  cases p
  cases q
  simpa [Json.sorted] using values

end Alike

/-! ## Orders of either kind -/

/-- The operations that place orders. -/
inductive Placing where
  | limit
  | market
  deriving DecidableEq, Repr

/-- The name of an operation that places orders. -/
def Placing.name : Placing → String
  | limit => Payload.operation LimitPayload
  | market => Payload.operation MarketPayload

/-- The payload of an order of either kind. -/
inductive AnyPayload where
  | limit (payload : LimitPayload)
  | market (payload : MarketPayload)
  deriving DecidableEq, Repr

/-- What is posted for an order of either kind. -/
inductive AnyPosting where
  | limit (posting : LimitPosting)
  | market (posting : MarketPosting)
  deriving DecidableEq, Repr

namespace AnyPosting

variable {limits : Json.Limits}

/-- The text that is signed when the order is placed by `op`. -/
def text (limits : Json.Limits) (op : Placing) : AnyPosting → Except Failure String
  | limit posting => Canonical.ofPosting limits op.name posting []
  | market posting => Canonical.ofPosting limits op.name posting []

/-- The order as JSON, as it is written before its text is made. -/
def tree : AnyPosting → Json
  | limit posting => toJson .canonical posting
  | market posting => toJson .canonical posting

/-- The integers of an order: its nonces and its time. -/
def integers : AnyPosting → List Int
  | limit posting => posting.payload.integers
  | market posting => posting.payload.integers

/-- The signatures of the fill orders. -/
def signatures : AnyPosting → List BlockchainSignature
  | limit posting => posting.payload.blockchainSignatures
  | market posting => posting.payload.blockchainSignatures

/-- What the text covers: all of the payload but the signatures of its fill orders. -/
def covered : AnyPosting → AnyPayload
  | limit posting => .limit (Payload.withSignatures posting.payload [])
  | market posting => .market (Payload.withSignatures posting.payload [])

/-- The fields that the text covers. -/
def coveredFields : AnyPosting → List (String × Option Json)
  | limit posting => Canonical.coveredFields (posting.payload.fields .canonical)
  | market posting => Canonical.coveredFields (posting.payload.fields .canonical)

/-- The covered part of an order as JSON. -/
def body (v : AnyPosting) : Json := record .canonical v.coveredFields

theorem text_eq_ok_iff {op : Placing} {v : AnyPosting} {text : String} :
    v.text limits op = .ok text ↔
      v.tree.Within limits ∧ op.name ++ "," ++ v.body.render = text := by
  cases v with
  | limit posting => exact Canonical.ofPosting_eq_ok_iff rfl (posting.payload.plain _)
  | market posting => exact Canonical.ofPosting_eq_ok_iff rfl (posting.payload.plain _)

theorem text_ends (op : Placing) (v : AnyPosting) :
    Canonical.Ends limits (.notCanonical op.name) v.tree (v.text limits op) := by
  cases v with
  | limit posting => exact Canonical.ofPosting_ends rfl (posting.payload.plain _) op.name
  | market posting => exact Canonical.ofPosting_ends rfl (posting.payload.plain _) op.name

theorem coveredFields_distinct (v : AnyPosting) : (keys .canonical v.coveredFields).Nodup := by
  cases v with
  | limit posting => exact (posting.payload.distinct _).sublist (List.filter_sublist.map _)
  | market posting => exact (posting.payload.distinct _).sublist (List.filter_sublist.map _)

theorem body_plain (v : AnyPosting) : Plain v.body := by
  cases v with
  | limit posting =>
    rw [body, coveredFields, record_eq, ← Canonical.without_signatures]
    exact (posting.payload.plain .canonical).without _
  | market posting =>
    rw [body, coveredFields, record_eq, ← Canonical.without_signatures]
    exact (posting.payload.plain .canonical).without _

/-- Payloads of limit orders that are written alike agree in every covered field. -/
theorem limit_covered_eq {v w : LimitPosting}
    (h : (body (.limit v)).sorted = (body (.limit w)).sorted) :
    (limit v).covered = (limit w).covered := by
  have values := values_eq_of_sorted_record_eq (limit v).coveredFields_distinct
    (limit w).coveredFields rfl h
  simp only [coveredFields, Canonical.coveredFields, LimitPayload.fields, signaturesField] at values
  simpa [Json.sorted, covered, Payload.withSignatures] using values

/-- Payloads of market orders that are written alike agree in every covered field. -/
theorem market_covered_eq {v w : MarketPosting}
    (h : (body (.market v)).sorted = (body (.market w)).sorted) :
    (market v).covered = (market w).covered := by
  have values := values_eq_of_sorted_record_eq (market v).coveredFields_distinct
    (market w).coveredFields rfl h
  simp only [coveredFields, Canonical.coveredFields, MarketPayload.fields,
    signaturesField] at values
  simpa [Json.sorted, covered, Payload.withSignatures] using values

/-- The payload of a limit order has a field that no payload of a market order has. -/
theorem limit_body_ne_market (v : LimitPosting) (w : MarketPosting) :
    (body (.limit v)).sorted ≠ (body (.market w)).sorted := by
  intro h
  have found : (present .canonical (coveredFields (.limit v))).get? "allow_taker" =
      some (.bool v.payload.allowTaker) :=
    get?_present (limit v).coveredFields_distinct (List.mem_cons_self ..)
  -- no field of a market order has this key
  have missing : (present .canonical (coveredFields (.market w))).get? "allow_taker" = none := by
    refine Json.Fields.get?_eq_none fun hmem => ?_
    have key := (present_keys_sublist _ _).subset hmem
    simp [keys, coveredFields, Canonical.coveredFields, MarketPayload.fields, signaturesField,
      Naming.key] at key
  have same : ((present .canonical (coveredFields (.limit v))).get? "allow_taker").map Json.sorted =
      ((present .canonical (coveredFields (.market w))).get? "allow_taker").map Json.sorted :=
    Json.Fields.get?_eq_of_sorted_eq (present_distinct (limit v).coveredFields_distinct) h _
  rw [found, missing] at same
  cases same

/-- The covered part of the order tells the fields that are covered. -/
theorem coveredFields_eq (v : AnyPosting) :
    v.coveredFields = match v.covered with
      | .limit payload => Canonical.coveredFields (payload.fields .canonical)
      | .market payload => Canonical.coveredFields (payload.fields .canonical) := by
  cases v <;> rfl

theorem sorted_body_eq_iff (v w : AnyPosting) :
    v.body.sorted = w.body.sorted ↔ v.covered = w.covered := by
  constructor
  · intro h
    cases v with
    | limit v =>
      cases w with
      | limit w => exact limit_covered_eq h
      | market w => exact absurd h (limit_body_ne_market v w)
    | market v =>
      cases w with
      | limit w => exact absurd h.symm (limit_body_ne_market w v)
      | market w => exact market_covered_eq h
  · intro h
    rw [body, body, coveredFields_eq, coveredFields_eq, h]

/-- What follows the name of the operation does not hide the name. -/
theorem named_inj {op op' : Placing} {s t : String}
    (h : op.name ++ "," ++ s = op'.name ++ "," ++ t) : op = op' ∧ s = t := by
  have same : op = op' := by
    have start := congrArg (fun u : String => u.toList.take 7) h
    simp only [String.toList_append] at start
    cases op <;> cases op' <;> simp_all [Placing.name, Payload.operation]
  subst same
  exact ⟨rfl, (String.append_right_inj _).1 h⟩

/-- Orders with one text agree in what it covers. -/
theorem covered_eq_of_text {op op' : Placing} {v w : AnyPosting} {text : String}
    (hv : v.text limits op = .ok text) (hw : w.text limits op' = .ok text) :
    op = op' ∧ v.covered = w.covered := by
  obtain ⟨-, shown⟩ := text_eq_ok_iff.1 hv
  obtain ⟨-, shown'⟩ := text_eq_ok_iff.1 hw
  obtain ⟨same, rendered⟩ := named_inj (shown.trans shown'.symm)
  have sorted := (Json.render_eq_iff v.body_plain w.body_plain).1 rendered
  exact ⟨same, (sorted_body_eq_iff v w).1 sorted⟩

/-- No order is nested deeper than four levels. -/
theorem depth_tree_le (v : AnyPosting) : v.tree.depth ≤ 4 := by
  cases v with
  | limit posting => exact posting.depth_le _ (posting.payload.depth_le _)
  | market posting => exact posting.depth_le _ (posting.payload.depth_le _)

theorem integers_tree (v : AnyPosting) : v.tree.integers = v.integers := by
  cases v with
  | limit posting => exact (posting.integers_eq _).trans (posting.payload.integers_eq _)
  | market posting => exact (posting.integers_eq _).trans (posting.payload.integers_eq _)

/-- With four levels allowed, an order without a text has an integer with too many digits. -/
theorem text_eq_error {op : Placing} {v : AnyPosting} {e : Failure} (enough : 4 ≤ limits.levels)
    (h : v.text limits op = .error e) :
    e = .of (.notCanonical op.name) ∧ ∃ n ∈ v.integers, limits.digits < Decimal.width n.natAbs := by
  have ends : Canonical.Ends limits (.notCanonical op.name) v.tree (v.text limits op) :=
    text_ends op v
  rw [h] at ends
  cases ends with
  | tooLong n hn long => exact ⟨rfl, n, v.integers_tree ▸ hn, long⟩
  | tooDeep deep => exact absurd (Nat.le_trans v.depth_tree_le enough) (Nat.not_le.2 deep)

end AnyPosting

end SignedOrders
