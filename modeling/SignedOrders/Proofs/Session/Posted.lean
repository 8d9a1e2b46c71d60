import Mathlib.Data.List.Nodup
import SignedOrders.Proofs.Naming
import SignedOrders.Proofs.Session.Build

/-!
# What is posted is what was signed

A request binds payloads and signatures to the variables of its mutation.  Each payload
is written on the wire after the signatures of its fill orders have been attached, while
the signer has been given the canonical text before.  This module proves that the text
can be made again from what is bound, and that the signature that is bound with it is the
signer's answer to just this text (`bound_as_signed`).
-/

namespace SignedOrders

open Tasks

/-! ## Variables of a mutation -/

namespace Mutation

theorem toString_inj {m n : Nat} (h : toString m = toString n) : m = n := by
  rw [Nat.toString_eq_ofList_toDigits, Nat.toString_eq_ofList_toDigits, String.ofList_inj] at h
  rw [← Decimal.digitsValue_digits m, Decimal.digits, h]
  exact Decimal.digitsValue_digits n

/-- Names of variables of different kinds are different. -/
theorem variable_ne {kind kind' : String} {c d : Char} (hc : kind.toList.head? = some c)
    (hd : kind'.toList.head? = some d) (hne : c ≠ d) (m n : Nat) :
    kind ++ toString m ≠ kind' ++ toString n := by
  intro h
  have first := congrArg (fun s : String => s.toList.head?) h
  simp only [String.toList_append, List.head?_append, hc, hd, Option.some_or,
    Option.some.injEq] at first
  exact hne first

/-- The kinds of the variables of a batch. -/
def kinds : List String := ["payload", "signature", "affiliate"]

/-- The variables of the order at an index of a batch. -/
def variableNames (i : Nat) : List String := kinds.map (· ++ toString i)

/-- A variable tells its kind and the index of its order. -/
theorem variable_inj {kind kind' : String} (h : kind ∈ kinds) (h' : kind' ∈ kinds) {m n : Nat}
    (same : kind ++ toString m = kind' ++ toString n) : kind = kind' ∧ m = n := by
  have alike : kind = kind' := by
    by_contra other
    obtain ⟨c, d, hc, hd, differ⟩ : ∃ c d, kind.toList.head? = some c ∧
        kind'.toList.head? = some d ∧ c ≠ d := by
      simp only [kinds, List.mem_cons, List.not_mem_nil, or_false] at h h'
      rcases h with rfl | rfl | rfl <;> rcases h' with rfl | rfl | rfl <;>
        first | exact absurd rfl other | exact ⟨_, _, rfl, rfl, by decide⟩
    exact variable_ne hc hd differ m n same
  subst alike
  exact ⟨rfl, toString_inj ((String.append_right_inj _).1 same)⟩

theorem nodup_variableNames (start n : Nat) :
    ((List.range' start n).flatMap variableNames).Nodup := by
  have inj (i : Nat) : Function.Injective fun kind : String => kind ++ toString i :=
    fun kind kind' same => (String.append_left_inj _).1 same
  refine List.nodup_flatMap.2 ⟨fun i _ => List.Nodup.map (inj i) (by decide), ?_⟩
  refine (@List.nodup_range' start n 1 (by decide)).imp fun {i j} apart name hi hj => apart ?_
  obtain ⟨kind, hkind, rfl⟩ := List.mem_map.1 hi
  obtain ⟨kind', hkind', same⟩ := List.mem_map.1 hj
  exact (variable_inj hkind' hkind same).2.symm

theorem limitPartsFrom_eq (start : Nat) (orders : List LimitPosting) :
    limitPartsFrom start orders =
      (orders.zipIdx start).map fun pair => limitPart pair.2 pair.1 := by
  induction orders generalizing start with
  | nil => rfl
  | cons v orders ih => rw [limitPartsFrom, ih, List.zipIdx_cons, List.map_cons]

variable {orders : List LimitPosting} {body : QueryBody}

/-- A batch that is not empty has a mutation. -/
theorem exists_ofLimitOrders (some : orders ≠ []) : ∃ body, ofLimitOrders orders = .ok body :=
  ⟨_, if_neg (by simpa using some)⟩

theorem bindings_ofLimitOrders (h : ofLimitOrders orders = .ok body) :
    body.bindings = orders.zipIdx.flatMap fun pair => (limitPart pair.2 pair.1).bindings := by
  unfold ofLimitOrders at h
  split at h
  · cases h
  · cases h
    dsimp only
    rw [limitPartsFrom_eq, List.flatMap_map]

/-- **A batch binds the variables of its orders**, order by order. -/
theorem names_ofLimitOrders (h : ofLimitOrders orders = .ok body) :
    body.bindings.map Prod.fst = (List.range orders.length).flatMap variableNames := by
  rw [bindings_ofLimitOrders h, List.map_flatMap, List.range_eq_range', ← List.zipIdx_map_snd,
    List.flatMap_map]
  rfl

/-- What is bound for the order at an index is found under its names. -/
theorem get?_of_mem_limitPart (h : ofLimitOrders orders = .ok body) (i : Nat)
    (hi : i < orders.length) {entry : String × Json}
    (member : entry ∈ (limitPart i orders[i]).bindings) :
    Json.Fields.get? body.bindings entry.1 = some entry.2 := by
  have distinct : (body.bindings.map Prod.fst).Nodup := by
    rw [names_ofLimitOrders h, List.range_eq_range']
    exact nodup_variableNames 0 orders.length
  refine (Json.Fields.get?_eq_some_iff distinct).2 ?_
  rw [bindings_ofLimitOrders h]
  exact List.mem_flatMap.2 ⟨(orders[i], i), List.mk_mem_zipIdx_iff_getElem?.2
    (List.getElem?_eq_getElem hi), member⟩

/-- The payload and the signature of each order are bound under its index. -/
theorem get?_bindings_ofLimitOrders (h : ofLimitOrders orders = .ok body) (i : Nat)
    (hi : i < orders.length) :
    Json.Fields.get? body.bindings ("payload" ++ toString i) =
        some (toJson .wire orders[i].payload) ∧
      Json.Fields.get? body.bindings ("signature" ++ toString i) =
        some (toJson .wire orders[i].signature) :=
  ⟨get?_of_mem_limitPart h i hi (.head _), get?_of_mem_limitPart h i hi (.tail _ (.head _))⟩

/-- So is the affiliate. -/
theorem get?_affiliate_ofLimitOrders (h : ofLimitOrders orders = .ok body) (i : Nat)
    (hi : i < orders.length) :
    Json.Fields.get? body.bindings ("affiliate" ++ toString i) =
      some (.ofText? orders[i].affiliate) :=
  get?_of_mem_limitPart h i hi (.tail _ (.tail _ (.head _)))

end Mutation

/-! ## Signed and bound -/

/-- The values that `body` binds to two variables come from one exchange with a signer:
the text that was signed is that of the payload, made from its form on the wire, and the
signature is the wire form of the answer. -/
def BoundAsSigned (op : Placing) (body : QueryBody) (payload signature : String)
    (exchange : String × Except Failure RequestSignature) : Prop :=
  ∃ wire answer, Json.Fields.get? body.bindings payload = some wire ∧
    Canonical.ofPosted op.name wire = some exchange.1 ∧ exchange.2 = .ok answer ∧
    Json.Fields.get? body.bindings signature = some (toJson .wire answer)

/-- The text that was signed is made again from the wire, whatever signature the posting
had before. -/
theorem AnyPosting.ofPosted_of_text {op : Placing} {v : AnyPosting} (unsigned : AnyPosting)
    {limits : Json.Limits} {text : String} (hcovered : unsigned.covered = v.covered)
    (h : unsigned.text limits op = .ok text) :
    Canonical.ofPosted op.name v.wirePayload = some text := by
  obtain ⟨-, shown⟩ := text_eq_ok_iff.1 h
  rw [body, coveredFields_eq, hcovered, ← coveredFields_eq, ← body] at shown
  rw [ofPosted_wirePayload, shown]

namespace Session

variable {seen : Session → Prop} {asked : List (Exchange signing)}

/-- Each order of a batch is signed once, in turn. -/
theorem texts_of_signLimit {service : Service} {time : Int} {orders : List (LimitOrder × Nat)}
    {signed : List Build.SignedLimit}
    (h : Courses seen (fun pair => Build.signLimit service time pair.2 pair.1) orders asked
      signed) :
    texts asked = signed.map (fun result => (result.text.2, .ok result.posting.signature)) ∧
      ∀ result ∈ signed, Canonical.ofPosted Placing.limit.name
        (toJson .wire result.posting.payload) = some result.text.2 := by
  induction h with
  | nil => exact ⟨rfl, by simp⟩
  | @cons a items before after result results first _ ih =>
    obtain ⟨once, ⟨unsigned, written⟩, -⟩ := Build.course_signLimit first
    refine ⟨by rw [texts_append, once, ih.1]; rfl, List.forall_mem_cons.2 ⟨?_, ih.2⟩⟩
    exact AnyPosting.ofPosted_of_text (v := .limit result.posting)
      (.limit { result.posting with signature := unsigned }) rfl written

/-- **What is posted is what was signed.**  For each order of a batch, and for a market
order, the text that was given to the signer is made again from the payload that is bound
on the wire, and the signer's answer is bound with it. -/
theorem bound_as_signed (service : Service) (time : Int) (seen : Session → Prop)
    (asked : List (Exchange signing)) (request : SignedRequest) :
    (∀ requests, Course seen (Build.limits service time requests) asked (.returned request) →
      (texts asked).length = requests.length ∧
        ∀ i (h : i < (texts asked).length),
          BoundAsSigned .limit request.body ("payload" ++ toString i) ("signature" ++ toString i)
            (texts asked)[i]) ∧
      ∀ given, Course seen (Build.market service time given) asked (.returned request) →
        ∃ exchange, texts asked = [exchange] ∧
          BoundAsSigned .market request.body "payload" "signature" exchange := by
  constructor
  · intro requests h
    obtain ⟨orders, signed, inner, hlength, hinner, each, hbody, -⟩ := Build.course_limits h
    obtain ⟨htexts, written⟩ := texts_of_signLimit each
    have count := each.length
    rw [List.length_zipIdx, hlength] at count
    rw [hinner, htexts]
    refine ⟨by rw [List.length_map, count], fun i hi => ?_⟩
    rw [List.length_map] at hi
    obtain ⟨payload, signature⟩ :=
      Mutation.get?_bindings_ofLimitOrders hbody i (by rwa [List.length_map])
    rw [List.getElem_map] at payload signature ⊢
    exact ⟨_, _, payload, written _ (List.getElem_mem hi), rfl, signature⟩
  · intro given h
    obtain ⟨posting, text, order, htexts, ⟨unsigned, written⟩, hbody, -⟩ := Build.course_market h
    refine ⟨_, htexts, toJson .wire posting.payload, posting.signature, ?_, ?_, rfl, ?_⟩
    · rw [hbody]
      rfl
    · exact AnyPosting.ofPosted_of_text (v := .market posting)
        (.market { posting with signature := unsigned }) rfl written
    · rw [hbody]
      rfl

/-- A market order and a batch of two limit orders are bound as they were signed. -/
theorem bound_as_signed_sample :
    (∃ asked request exchange, Course (· = Sample.session)
      (Build.market Sample.service 1000 Sample.marketRequest) asked (.returned request) ∧
        texts asked = [exchange] ∧
        BoundAsSigned .market request.body "payload" "signature" exchange) ∧
      ∃ asked request, Course (· = Sample.session)
        (Build.limits Sample.service 1000 [Sample.limitRequest, Sample.limitRequest]) asked
          (.returned request) ∧ (texts asked).length = 2 ∧
        ∀ i (h : i < (texts asked).length),
          BoundAsSigned .limit request.body ("payload" ++ toString i) ("signature" ++ toString i)
            (texts asked)[i] := by
  constructor
  · obtain ⟨asked, request, course⟩ := (Build.readOnly_market Sample.service 1000
      Sample.marketRequest).exists_course Sample.answer Sample.session Sample.market_given
    obtain ⟨exchange, once, bound⟩ :=
      (bound_as_signed Sample.service 1000 (· = Sample.session) asked request).2 _ course
    exact ⟨asked, request, exchange, course, once, bound⟩
  · obtain ⟨asked, request, course⟩ := (Build.readOnly_limits Sample.service 1000
      [Sample.limitRequest, Sample.limitRequest]).exists_course Sample.answer Sample.session
        Sample.limits_given
    exact ⟨asked, request, course,
      (bound_as_signed Sample.service 1000 (· = Sample.session) asked request).1 _ course⟩

end Session

end SignedOrders
