import SignedOrders.Proofs.Json.Reading
import SignedOrders.Proofs.Payload
import SignedOrders.Proofs.Query.Document
import SignedOrders.Proofs.Session.Posted

/-!
# The document of a batch

The text of the mutation of a batch is put together from a declaration and a call for each order,
and the values are bound to names that are made apart from both.

Read as a document, the text declares three variables for each order and makes one call for each,
with just these variables (`ofText?_queryText`).  The names to which values are bound are those of
the declared variables, each once.  So whatever the length of the batch, the call at an index is
made with the values of the order at this index (`exists_indexFaithful`).
-/

namespace SignedOrders.Mutation

open Query

/-! ## Documents of batches -/

/-- The variables that are declared for the order at an index. -/
def declared (i : Nat) : List Variable :=
  [⟨"payload" ++ toString i, "PlaceLimitOrderParams", true⟩,
    ⟨"signature" ++ toString i, "Signature", true⟩,
    ⟨"affiliate" ++ toString i, "AffiliateDeveloperCode", false⟩]

/-- A field without label, arguments and inner fields. -/
def plainField (name : String) : Call := ⟨none, name, [], .nil⟩

/-- What is asked of a placed order. -/
def asked : Selection :=
  .ofCalls [plainField "id", plainField "status", plainField "ordersTillSignState",
    plainField "buyOrSell", ⟨none, "market", [], .ofCalls [plainField "name"]⟩,
    plainField "placedAt", plainField "type"]

/-- The call that places the order at an index. -/
def call (i : Nat) : Call where
  label := some ("response" ++ toString i)
  name := "placeLimitOrder"
  arguments := [⟨"payload", "payload" ++ toString i⟩, ⟨"signature", "signature" ++ toString i⟩,
    ⟨"affiliateDeveloperCode", "affiliate" ++ toString i⟩]
  inner := asked

/-- The mutation of a batch. -/
def document (n : Nat) : Document :=
  ⟨"PlaceLimitOrder", (List.range n).flatMap declared, .ofCalls ((List.range n).map call)⟩

/-! ## Texts of batches -/

/-- The declarations for the order at an index, in parts that end with the index. -/
def declarationText (i : Nat) : String :=
  "$" ++ "payload" ++ toString i ++
    (": PlaceLimitOrderParams!, $" ++ "signature" ++ toString i ++
      (": Signature!, $" ++ "affiliate" ++ toString i ++ ": AffiliateDeveloperCode"))

/-- The text of the call for the order at an index, in parts that end with the index. -/
def callText (i : Nat) : String :=
  "  response" ++ toString i ++
    (": placeLimitOrder(payload: $" ++ "payload" ++ toString i ++
      (", signature: $" ++ "signature" ++ toString i ++
        (", affiliateDeveloperCode: $" ++ "affiliate" ++ toString i ++ (") " ++ selection))))

/-- The text of the mutation of a batch. -/
def queryText (n : Nat) : String :=
  "mutation PlaceLimitOrder(" ++ (", ".intercalate ((List.range n).map declarationText) ++
    (") \x7b\n" ++ ("\n".intercalate ((List.range n).map callText) ++ "\n\x7d\n")))

theorem declarations_limitPart (i : Nat) (v : LimitPosting) :
    (limitPart i v).declarations = declarationText i := by
  simp only [limitPart, declarationText, String.append_assoc]
  rfl

theorem call_limitPart (i : Nat) (v : LimitPosting) : (limitPart i v).call = callText i := by
  simp only [limitPart, callText, String.append_assoc]
  rfl

variable {orders : List LimitPosting} {body : QueryBody}

/-- Texts of parts that are told by the index are those of the indices. -/
theorem map_limitPartsFrom (text : BatchPart → String) {textAt : Nat → String}
    (same : ∀ (i : Nat) v, text (limitPart i v) = textAt i) (orders : List LimitPosting) :
    (limitPartsFrom 0 orders).map text = (List.range orders.length).map textAt := by
  rw [limitPartsFrom_eq, List.map_map, List.range_eq_range', ← List.zipIdx_map_snd, List.map_map]
  exact List.map_congr_left fun pair _ => same pair.2 pair.1

/-- **The text of the mutation depends on the length of the batch alone.** -/
theorem query_ofLimitOrders (h : ofLimitOrders orders = .ok body) :
    body.operationName = "PlaceLimitOrder" ∧ body.query = queryText orders.length := by
  unfold ofLimitOrders at h
  split at h
  · cases h
  · cases h
    refine ⟨rfl, ?_⟩
    unfold queryText
    rw [← map_limitPartsFrom (·.declarations) declarations_limitPart,
      ← map_limitPartsFrom (·.call) call_limitPart]
    simp only [String.append_assoc]

/-! ## Reading the texts -/

/-- The declarations for an order are read as those of its variables. -/
theorem follows_declarationText (i : Nat) :
    Follows (declarationText i) ((declared i).flatMap Variable.tokens) := by
  have payload := follows_numbered ("$" ++ "payload") "payload" [.mark '$'] (by decide +kernel)
    (by decide) (by decide) i
  have signature := follows_numbered (": PlaceLimitOrderParams!, $" ++ "signature") "signature"
    [.mark ':', .name "PlaceLimitOrderParams", .mark '!', .mark '$'] (by decide +kernel)
    (by decide) (by decide) i
  have affiliate := follows_numbered (": Signature!, $" ++ "affiliate") "affiliate"
    [.mark ':', .name "Signature", .mark '!', .mark '$'] (by decide +kernel)
    (by decide) (by decide) i
  have type : Follows ": AffiliateDeveloperCode" [.mark ':', .name "AffiliateDeveloperCode"] :=
    ⟨by decide +kernel, by decide⟩
  exact payload.append (signature.append (affiliate.append type))

/-- The text of the call for an order is read as its call. -/
theorem follows_callText (i : Nat) : Follows (callText i) (call i).tokens := by
  have response := follows_numbered "  response" "response" [] (by decide +kernel)
    (by decide) (by decide) i
  have payload := follows_numbered (": placeLimitOrder(payload: $" ++ "payload") "payload"
    [.mark ':', .name "placeLimitOrder", .mark '(', .name "payload", .mark ':', .mark '$']
    (by decide +kernel) (by decide) (by decide) i
  have signature := follows_numbered (", signature: $" ++ "signature") "signature"
    [.name "signature", .mark ':', .mark '$'] (by decide +kernel) (by decide) (by decide) i
  have affiliate := follows_numbered (", affiliateDeveloperCode: $" ++ "affiliate") "affiliate"
    [.name "affiliateDeveloperCode", .mark ':', .mark '$'] (by decide +kernel)
    (by decide) (by decide) i
  have fields : Follows (") " ++ selection)
      (.mark ')' :: .mark '\x7b' :: asked.tokens ++ [.mark '\x7d']) :=
    ⟨by decide +kernel, startsApart_append (by decide) _⟩
  exact response.append (payload.append (signature.append (affiliate.append fields)))

theorem document_declares {n : Nat} (pos : 0 < n) : (document n).declarations ≠ [] :=
  List.ne_nil_of_mem (List.mem_flatMap.2 ⟨0, List.mem_range.2 pos, .head _⟩)

theorem calls_document (n : Nat) : (document n).selection.calls = (List.range n).map call :=
  Selection.calls_ofCalls _

theorem document_asks {n : Nat} (pos : 0 < n) : (document n).selection ≠ .nil := by
  intro none
  have calls := calls_document n
  rw [none] at calls
  exact List.ne_nil_of_mem (List.mem_map_of_mem (List.mem_range.2 pos)) calls.symm

/-- **The text of the mutation is read as its document.** -/
theorem ofText?_queryText {n : Nat} (pos : 0 < n) :
    Document.ofText? (queryText n) = some (document n) := by
  have some : List.range n ≠ [] := List.ne_nil_of_mem (List.mem_range.2 pos)
  have comma : Follows ", " [] := ⟨by decide +kernel, by decide⟩
  have newline : Follows "\n" [] := ⟨by decide +kernel, by decide⟩
  have declarations := follows_intercalate comma follows_declarationText (List.range n) some
  have calls := follows_intercalate newline follows_callText (List.range n) some
  have first : Reads "mutation PlaceLimitOrder("
      [.name "mutation", .name "PlaceLimitOrder", .mark '('] := by decide +kernel
  have middle : Follows ") \x7b\n" [.mark ')', .mark '\x7b'] := ⟨by decide +kernel, by decide⟩
  have last : Follows "\n\x7d\n" [.mark '\x7d'] := ⟨by decide +kernel, by decide⟩
  have all := first.append (declarations.append (middle.append (calls.append last)))
  have tokens := Document.tokens_eq (document_declares pos) (document_asks pos)
  rw [document, List.flatMap_assoc, Selection.tokens_ofCalls, List.flatMap_map] at tokens
  rw [Document.ofText?, show tokens? (queryText n).toList = _ from all, Option.bind_some, ← tokens]
  exact Document.ofTokens?_tokens _ (document_asks pos)

/-! ## Values -/

/-- Fields with the entries put in, each in place of an earlier one of its name. -/
def merge (fields entries : Json.Fields) : Json.Fields :=
  entries.foldl (fun fields entry => fields.set entry.1 entry.2) fields

/-- **Entries under new and different names replace nothing.** -/
theorem merge_eq_append {fields entries : Json.Fields}
    (distinct : ((fields ++ entries).map Prod.fst).Nodup) :
    merge fields entries = fields ++ entries := by
  induction entries generalizing fields with
  | nil => exact (List.append_nil fields).symm
  | cons entry entries ih =>
    have new : entry.1 ∉ fields.map Prod.fst := fun old => by
      rw [List.map_append, List.nodup_append] at distinct
      exact distinct.2.2 _ old _ (.head _) rfl
    rw [List.append_cons] at distinct ⊢
    rw [← ih distinct, ← Json.Fields.set_of_notMem new]
    rfl

/-- **The ideal for the mutation of a batch**: the text is that of a document which declares the
variables of all orders, each once, and makes a call for each order with its variables; the values
are bound to just these variables, those of each order to the variables of its index. -/
structure IndexFaithful (orders : List LimitPosting) (body : QueryBody) (d : Document) : Prop where
  text : Document.ofText? body.query = some d
  operation : d.operation = body.operationName
  /-- Three variables are declared for each order, in order. -/
  declares : d.declarations = (List.range orders.length).flatMap declared
  count : d.declarations.length = 3 * orders.length
  distinct : (d.declarations.map (·.name)).Nodup
  /-- A call is made for each order, in order. -/
  calls : d.selection.calls = (List.range orders.length).map call
  /-- Values are bound to the variables that are declared. -/
  names : body.bindings.map Prod.fst = d.declarations.map (·.name)
  /-- No value replaces another, if the values of the orders are put in one after another. -/
  kept : ((limitPartsFrom 0 orders).map (·.bindings)).foldl merge [] = body.bindings
  /-- The values of an order are those of its wire form. -/
  payload : ∀ i (hi : i < orders.length),
    Json.Fields.get? body.bindings ("payload" ++ toString i) =
      (toJson .wire orders[i]).get? "payload"
  signature : ∀ i (hi : i < orders.length),
    Json.Fields.get? body.bindings ("signature" ++ toString i) =
      (toJson .wire orders[i]).get? "signature"
  affiliate : ∀ i (hi : i < orders.length),
    Json.Fields.get? body.bindings ("affiliate" ++ toString i) =
      some (((toJson .wire orders[i]).get? "affiliate").getD .null)

theorem names_document (n : Nat) :
    (document n).declarations.map (·.name) = (List.range n).flatMap variableNames := by
  rw [document, List.map_flatMap]
  rfl

/-- The parts of a posting are the fields of its wire form. -/
theorem get?_posting (v : LimitPosting) :
    (toJson .wire v).get? "payload" = some (toJson .wire v.payload) ∧
      (toJson .wire v).get? "signature" = some (toJson .wire v.signature) ∧
      (toJson .wire v).get? "affiliate" = v.affiliate.map Json.str := by
  have distinct := Posting.distinct .wire (some (toJson .wire v.payload))
    (some (toJson .wire v.signature)) (v.affiliate.map Json.str)
  have payload := get?_present distinct (.head _)
  have signature := get?_present distinct (.tail _ (.head _))
  have affiliate := get?_present distinct (.tail _ (.tail _ (.head _)))
  have keys : Naming.wire.key "payload" = "payload" ∧ Naming.wire.key "signature" = "signature" ∧
      Naming.wire.key "affiliate" = "affiliate" := by
    decide +kernel
  rw [keys.1] at payload
  rw [keys.2.1] at signature
  rw [keys.2.2] at affiliate
  exact ⟨payload, signature, affiliate⟩

/-- The values of a batch are those of its parts. -/
theorem flatMap_bindings (h : ofLimitOrders orders = .ok body) :
    (limitPartsFrom 0 orders).flatMap (·.bindings) = body.bindings := by
  rw [bindings_ofLimitOrders h, limitPartsFrom_eq, List.flatMap_map]

theorem indexFaithful_of_ok (some : orders ≠ []) (h : ofLimitOrders orders = .ok body) :
    IndexFaithful orders body (document orders.length) := by
  obtain ⟨operation, query⟩ := query_ofLimitOrders h
  have names := (names_ofLimitOrders h).trans (names_document orders.length).symm
  have distinct : ((document orders.length).declarations.map (·.name)).Nodup := by
    rw [names_document, List.range_eq_range']
    exact nodup_variableNames 0 orders.length
  constructor
  case text =>
    rw [query]
    exact ofText?_queryText (List.length_pos_iff.2 some)
  case operation => exact operation.symm
  case declares => rfl
  case count =>
    have three (i : Nat) : (declared i).length = 3 := rfl
    simp [document, List.length_flatMap, three, Nat.mul_comm]
  case distinct => exact distinct
  case calls => exact calls_document orders.length
  case names => exact names
  case kept =>
    have all : ((([] : Json.Fields) ++ body.bindings).map Prod.fst).Nodup := names ▸ distinct
    calc ((limitPartsFrom 0 orders).map (·.bindings)).foldl merge []
        = merge [] ((limitPartsFrom 0 orders).flatMap (·.bindings)) := by
          rw [List.foldl_map]
          exact List.foldl_flatMap.symm
      _ = merge [] body.bindings := by rw [flatMap_bindings h]
      _ = body.bindings := merge_eq_append all
  case payload =>
    intro i hi
    rw [(get?_posting _).1]
    exact (get?_bindings_ofLimitOrders h i hi).1
  case signature =>
    intro i hi
    rw [(get?_posting _).2.1]
    exact (get?_bindings_ofLimitOrders h i hi).2
  case affiliate =>
    intro i hi
    rw [get?_affiliate_ofLimitOrders h i hi, (get?_posting _).2.2]
    cases orders[i].affiliate <;> rfl

/-- **Whatever the length of a batch, its mutation is faithful to the indices of its orders**, and
its text depends on the length alone. -/
theorem exists_indexFaithful (some : orders ≠ []) :
    ∃ (body : QueryBody) (d : Document),
      ofLimitOrders orders = .ok body ∧ IndexFaithful orders body d ∧
        ∀ (others : List LimitPosting) (body' : QueryBody), others.length = orders.length →
          ofLimitOrders others = .ok body' → body'.query = body.query := by
  obtain ⟨body, h⟩ := exists_ofLimitOrders some
  refine ⟨body, _, h, indexFaithful_of_ok some h, fun others body' same h' => ?_⟩
  rw [(query_ofLimitOrders h').2, (query_ofLimitOrders h).2, same]

/-- Two orders of one payload, one with an affiliate. -/
def sampleBatch : List LimitPosting :=
  let payload : LimitPayload := ⟨true, .sell, none, .goodTilCancelled, none, "neo_gas",
    ⟨"1.00000000", "neo"⟩, 1, 1, 7, 0, ⟨"0.5", "gas", "neo"⟩, []⟩
  [⟨payload, ⟨"5d", "03"⟩, none⟩, ⟨payload, ⟨"5e", "03"⟩, some "dev"⟩]

/-- The mutation of two orders declares six variables. -/
theorem exists_indexFaithful_two :
    sampleBatch ≠ [] ∧ ∃ (body : QueryBody) (d : Document),
      ofLimitOrders sampleBatch = .ok body ∧ IndexFaithful sampleBatch body d ∧
        d.declarations.map (·.name) =
          ["payload0", "signature0", "affiliate0", "payload1", "signature1", "affiliate1"] := by
  have some : sampleBatch ≠ [] := by decide
  obtain ⟨body, d, made, faithful, -⟩ := exists_indexFaithful some
  refine ⟨some, body, d, made, faithful, ?_⟩
  rw [faithful.declares]
  decide +kernel

end SignedOrders.Mutation
