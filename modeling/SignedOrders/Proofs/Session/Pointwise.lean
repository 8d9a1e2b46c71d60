import SignedOrders.Proofs.Session.Posted
import SignedOrders.Proofs.Session.Requests
import SignedOrders.Proofs.Tasks.Determinate

/-!
# A batch is its orders, one by one

While the markets, the signer and the nonces of a session stay as they are, a batch of limit
orders comes to what its requests come to one by one: an order is constructed for each, and then
each order is signed at its index.  The batch is given if and only if all of this succeeds, with
the parts of the orders in turn (`Setting.Composed`); what is bound for one of them does not
depend on the others.  Otherwise the first request whose construction fails decides, or, if
there is none, the first order whose signing fails (`Setting.Refused`).

Other tasks may run meanwhile, as long as they leave these parts of the session alone: the build
is determinate in all sessions that agree in them (`determinate_limits`).
-/

namespace SignedOrders.Session

open Tasks Build

/-! ## Builds are determinate -/

section Determinate

variable {seen : Session → Prop} {s : Session}

theorem determinate_attempt (r : Except Failure α) : Determinate seen s (attempt r) :=
  determinate_ofExcept r

theorem determinate_call (signer : Signer) (call : SignerCall) :
    Determinate seen s (Build.call signer call) := fun answer => determinate_attempt answer

theorem determinate_signatures (signer : Signer) (market : Market) (source : Amount)
    (destination : Asset) (combinations : List Combination) :
    Determinate seen s (Build.signatures signer market source destination combinations) := by
  refine (determinate_collect (fun chain => ?_) _).bind fun _ => trivial
  refine (determinate_call _ _).bind fun key => determinate_collect (fun c => ?_) _
  exact (determinate_attempt _).bind fun _ => (determinate_attempt _).bind fun _ =>
    (determinate_call _ _).bind fun _ => determinate_attempt _

theorem determinate_signed [Payload π] (signer : Signer) (v : Posting π)
    (signatures : List BlockchainSignature) : Determinate seen s (signed signer v signatures) :=
  (determinate_attempt _).bind fun _ =>
    Determinate.bind (fun _ => determinate_attempt _) fun _ => trivial

variable (settled : ∀ t, seen t → Agrees s t)

include settled

theorem determinate_limitOrder (service : Service) (given : LimitRequest) :
    Determinate seen s (limitOrder service given) :=
  (determinate_read fun t ht => by rw [(settled t ht).catalog]).bind fun _ => determinate_attempt _

theorem determinate_signLimit (service : Service) (time : Int) (index : Nat) (order : LimitOrder) :
    Determinate seen s (signLimit service time index order) := by
  have pool (t : Session) (ht : seen t) (asset : String) : t.pool asset = s.pool asset := by
    rw [Session.pool, Session.pool, (settled t ht).pools]
  refine (determinate_attempt _).bind fun _ =>
    (determinate_read fun t ht => by rw [pool t ht, pool t ht]).bind fun _ => ?_
  refine (determinate_attempt _).bind fun _ =>
    (determinate_read fun t ht => by
      rw [getSigner, getSigner, (settled t ht).signer]).bind fun _ => ?_
  exact (determinate_signatures ..).bind fun _ => (determinate_signed ..).bind fun _ => trivial

/-- **A build of a batch is determinate**: it sees the markets, the signer and the nonces, and
nothing else of the session. -/
theorem determinate_limits (service : Service) (time : Int) (requests : List LimitRequest) :
    Determinate seen s (limits service time requests) := by
  unfold limits
  split
  · trivial
  · refine (determinate_collect (determinate_limitOrder settled service) _).bind fun orders =>
      (determinate_collect (fun pair => determinate_signLimit settled ..) _).bind fun _ =>
        (determinate_attempt _).bind fun _ => trivial

end Determinate

/-! ## What the requests come to one by one -/

/-- What a build is given: a service, a time, a session that stays as it is, and an answer to
every question. -/
structure Setting where
  service : Service
  time : Int
  session : Session
  respond : (question : signing.Question) → signing.Answer question

namespace Setting

variable (env : Setting)

/-- What the construction of an order for a request comes to. -/
def construct (given : LimitRequest) : Outcome Failure LimitOrder :=
  (limitOrder env.service given).outcome env.respond env.session

/-- What the signing of an order at an index comes to. -/
def sign (i : Nat) (order : LimitOrder) : Outcome Failure SignedLimit :=
  (signLimit env.service env.time i order).outcome env.respond env.session

/-- What a batch comes to. -/
def batch (requests : List LimitRequest) : Outcome Failure SignedRequest :=
  (limits env.service env.time requests).outcome env.respond env.session

/-- An order is constructed for the request, and signed at the index. -/
structure BuiltAt (i : Nat) (given : LimitRequest) (order : LimitOrder) (result : SignedLimit) :
    Prop where
  constructed : env.construct given = .returned order
  signed : env.sign i order = .returned result

/-- Every request can be built at its own index. -/
def Buildable (requests : List LimitRequest) : Prop :=
  ∀ (i : Nat) given, requests[i]? = some given → ∃ order result, env.BuiltAt i given order result

/-- What is posted has one part for each request, in their order, and the part of each is what
the request comes to by itself. -/
structure Composed (requests : List LimitRequest) (request : SignedRequest) : Prop where
  names : request.body.bindings.map Prod.fst =
    (List.range requests.length).flatMap Mutation.variableNames
  combinations : request.combinations.length = requests.length
  parts : ∃ orders, request.placement = .limits orders ∧ orders.length = requests.length ∧
    ∀ (i : Nat) given, requests[i]? = some given → ∃ order result,
      env.BuiltAt i given order result ∧ orders[i]? = some order ∧
      request.combinations[i]? = some result.combination ∧
      Json.Fields.get? request.body.bindings ("payload" ++ toString i) =
        some (toJson .wire result.posting.payload) ∧
      Json.Fields.get? request.body.bindings ("signature" ++ toString i) =
        some (toJson .wire result.posting.signature) ∧
      Json.Fields.get? request.body.bindings ("affiliate" ++ toString i) =
        some (.ofText? env.service.affiliate)

/-- Why a batch fails with `e`. -/
inductive Refused (requests : List LimitRequest) (e : Failure) : Prop
  /-- The construction for the request at `i` fails, the first that does. -/
  | construction (i : Nat) (first : FirstFails env.construct requests i e)
  /-- Orders are constructed for all requests, and signing fails for that at `i` first. -/
  | signing (i : Nat) (given : LimitRequest) (order : LimitOrder)
      (constructed : ∀ (j : Nat) other, requests[j]? = some other →
        ∃ order, env.construct other = .returned order)
      (here : requests[i]? = some given) (made : env.construct given = .returned order)
      (failed : env.sign i order = .failed e)
      (before : ∀ j < i, ∀ other, requests[j]? = some other →
        ∃ order result, env.BuiltAt j other order result)

/-- The two requests have the same bound and the same combination for the order at `i`. -/
def SamePart (i : Nat) (request request' : SignedRequest) : Prop :=
  (∀ kind ∈ Mutation.kinds, Json.Fields.get? request.body.bindings (kind ++ toString i) =
    Json.Fields.get? request'.body.bindings (kind ++ toString i)) ∧
  request.combinations[i]? = request'.combinations[i]?

variable {env} {requests others : List LimitRequest} {request request' : SignedRequest}

/-! ## Settling a batch -/

theorem BuiltAt.unique {i : Nat} {given : LimitRequest} {order order' : LimitOrder}
    {result result' : SignedLimit} (h : env.BuiltAt i given order result)
    (h' : env.BuiltAt i given order' result') : order = order' ∧ result = result' := by
  cases h.constructed.symm.trans h'.constructed
  cases h.signed.symm.trans h'.signed
  exact ⟨rfl, rfl⟩

/-- The affiliate of an order is that of the service. -/
theorem affiliate_of_sign {i : Nat} {order : LimitOrder} {result : SignedLimit}
    (h : env.sign i order = .returned result) :
    result.posting.affiliate = env.service.affiliate := by
  obtain ⟨-, asked, course, -⟩ :=
    (readOnly_signLimit env.service env.time i order).evaluate env.respond env.session
  rw [show (Plan.evaluate ..).2 = _ from h] at course
  obtain ⟨signer, v, signatures, filled, sealed, -, posted, -, -, hsealed, -⟩ :=
    parts_of_signLimit course
  obtain ⟨answer, -, same, -⟩ := parts_of_signed hsealed
  obtain ⟨cancelAt, -, posted⟩ := bind_eq_ok.1 posted
  obtain ⟨price, -, posted⟩ := bind_eq_ok.1 posted
  cases posted
  exact congrArg Posting.affiliate same

section Constructed

variable {orders : List LimitOrder} {signed : List SignedLimit}
  (made : List.Forall₂ (fun given order => env.construct given = .returned order) requests orders)

include made

/-- The order of the request at an index stands at this index, next to it. -/
theorem exists_zipIdx {i : Nat} {given : LimitRequest} (here : requests[i]? = some given) :
    ∃ order, orders.zipIdx[i]? = some (order, i) ∧ orders[i]? = some order ∧
      env.construct given = .returned order := by
  obtain ⟨order, horder, constructed⟩ := getElem?_of_forall₂ made here
  refine ⟨order, ?_, horder, constructed⟩
  rw [List.getElem?_zipIdx, horder, Option.map_some, Nat.zero_add]

/-- Signing in turn fails where the first order fails. -/
theorem refused_of_firstFails {i : Nat} {e : Failure}
    (first : FirstFails (fun pair : LimitOrder × Nat => env.sign pair.2 pair.1) orders.zipIdx i e) :
    env.Refused requests e := by
  obtain ⟨⟨pair, hpair, failed⟩, before⟩ := first
  rw [List.getElem?_zipIdx, Nat.zero_add] at hpair
  obtain ⟨order, horder, rfl⟩ := Option.map_eq_some_iff.1 hpair
  obtain ⟨given, here, constructed⟩ := getElem?_of_forall₂ made.flip horder
  refine .signing i given order (fun j other there => ?_) here constructed failed
    fun j less other there => ?_
  · obtain ⟨order, -, -, constructed⟩ := exists_zipIdx made there
    exact ⟨order, constructed⟩
  · obtain ⟨order, place, -, constructed⟩ := exists_zipIdx made there
    obtain ⟨result, gave⟩ := before j less _ place
    exact ⟨order, result, constructed, gave⟩

variable (each : List.Forall₂ (fun pair result => env.sign pair.2 pair.1 = .returned result)
  orders.zipIdx signed)

include each

/-- What is constructed and signed for the request at an index. -/
theorem exists_builtAt {i : Nat} {given : LimitRequest} (here : requests[i]? = some given) :
    ∃ order result, orders[i]? = some order ∧ signed[i]? = some result ∧
      env.BuiltAt i given order result := by
  obtain ⟨order, place, horder, constructed⟩ := exists_zipIdx made here
  obtain ⟨result, hresult, gave⟩ := getElem?_of_forall₂ each place
  exact ⟨order, result, horder, hresult, constructed, gave⟩

theorem buildable : env.Buildable requests := by
  intro i given here
  obtain ⟨order, result, -, -, built⟩ := exists_builtAt made each here
  exact ⟨order, result, built⟩

theorem composed (body : Mutation.ofLimitOrders (signed.map (·.posting)) = .ok request.body)
    (placement : request.placement = .limits orders)
    (combinations : request.combinations = signed.map (·.combination)) :
    env.Composed requests request := by
  have count : signed.length = requests.length := by
    rw [← each.length_eq, List.length_zipIdx, ← made.length_eq]
  constructor
  case names => rw [Mutation.names_ofLimitOrders body, List.length_map, count]
  case combinations => rw [combinations, List.length_map, count]
  case parts =>
    refine ⟨orders, placement, made.length_eq.symm, fun i given here => ?_⟩
    obtain ⟨order, result, horder, hresult, built⟩ := exists_builtAt made each here
    obtain ⟨hi, rfl⟩ := List.getElem?_eq_some_iff.1 hresult
    have hi' : i < (signed.map (·.posting)).length := by rwa [List.length_map]
    obtain ⟨payload, signature⟩ := Mutation.get?_bindings_ofLimitOrders body i hi'
    have affiliate := Mutation.get?_affiliate_ofLimitOrders body i hi'
    rw [List.getElem_map] at payload signature affiliate
    rw [affiliate_of_sign built.signed] at affiliate
    refine ⟨order, signed[i], built, horder, ?_, payload, signature, affiliate⟩
    rw [combinations, List.getElem?_map, hresult, Option.map_some]

end Constructed

variable (env) in
/-- **How a batch ends**: with all parts, or with the first failure. -/
theorem batch_cases (some : requests ≠ []) :
    (∃ request, env.batch requests = .returned request ∧ env.Composed requests request) ∧
      env.Buildable requests ∨
    ∃ e, env.batch requests = .failed e ∧ env.Refused requests e := by
  have settled (t : Session) (h : t = env.session) : Agrees env.session t := agrees_of_eq h
  have makes := determinate_limitOrder settled env.service
  have signs := fun pair : LimitOrder × Nat =>
    determinate_signLimit settled env.service env.time pair.2 pair.1
  -- without the case of no requests, a batch is three plans one after another
  have batch : limits env.service env.time requests =
      (Plan.collect (limitOrder env.service) requests).bind fun orders =>
        (Plan.collect (fun pair : LimitOrder × Nat =>
          signLimit env.service env.time pair.2 pair.1) orders.zipIdx).bind fun signed =>
            (attempt (Mutation.ofLimitOrders (signed.map (·.posting)))).bind fun body =>
              .done ⟨body, .limits orders, signed.map (·.combination), signed.map (·.text),
                false⟩ := by
    rw [limits, if_neg (by simpa using some)]
    rfl
  rw [Setting.batch, batch]
  rcases collect_cases env.respond makes requests with
    ⟨orders, collected, made⟩ | ⟨i, e, failed, first⟩
  · rw [(determinate_collect makes _).outcome_bind collected]
    rcases collect_cases env.respond signs orders.zipIdx with
      ⟨signed, collected, each⟩ | ⟨i, e, failed, first⟩
    · rw [(determinate_collect signs _).outcome_bind collected]
      have full : signed.map (·.posting) ≠ [] := by
        rw [← List.length_pos_iff, List.length_map, ← each.length_eq, List.length_zipIdx,
          ← made.length_eq]
        exact List.length_pos_iff.2 some
      obtain ⟨body, posted⟩ := Mutation.exists_ofLimitOrders full
      rw [posted]
      exact .inl ⟨⟨_, rfl, composed made each posted rfl rfl⟩, buildable made each⟩
    · exact .inr ⟨e, (determinate_collect signs _).outcome_bind_failed failed,
        refused_of_firstFails made first⟩
  · exact .inr ⟨e, (determinate_collect makes _).outcome_bind_failed failed, .construction i first⟩

/-! ## Reasons exclude each other -/

/-- A batch that is refused cannot be built. -/
theorem Refused.not_buildable {e : Failure} (h : env.Refused requests e) :
    ¬ env.Buildable requests := by
  intro all
  cases h with
  | construction i first =>
    obtain ⟨⟨given, here, failed⟩, -⟩ := first
    obtain ⟨order, result, built⟩ := all i given here
    cases failed.symm.trans built.constructed
  | signing i given order _ here made failed _ =>
    obtain ⟨order', result, built⟩ := all i given here
    cases made.symm.trans built.constructed
    cases failed.symm.trans built.signed

/-- Where signing fails for an order, all before it are signed, so that it is the first. -/
theorem not_lt_of_signing {i j : Nat} {e : Failure} {given : LimitRequest} {order : LimitOrder}
    (here : requests[i]? = some given) (made : env.construct given = .returned order)
    (failed : env.sign i order = .failed e)
    (before : ∀ k < j, ∀ other, requests[k]? = some other →
      ∃ order result, env.BuiltAt k other order result) : ¬ i < j := by
  intro less
  obtain ⟨order', result, built⟩ := before i less given here
  cases made.symm.trans built.constructed
  cases failed.symm.trans built.signed

/-- A batch is refused with one failure. -/
theorem Refused.unique {e e' : Failure} (h : env.Refused requests e)
    (h' : env.Refused requests e') : e = e' := by
  -- signing is only tried when no construction fails
  have apart {i : Nat} {e : Failure} (first : FirstFails env.construct requests i e)
      (constructed : ∀ (j : Nat) other, requests[j]? = some other →
        ∃ order, env.construct other = .returned order) : False := by
    obtain ⟨⟨given, here, failed⟩, -⟩ := first
    obtain ⟨order, made⟩ := constructed i given here
    cases failed.symm.trans made
  cases h with
  | construction i first =>
    cases h' with
    | construction j first' => exact (first.unique first').2
    | signing _ _ _ constructed => exact (apart first constructed).elim
  | signing i given order constructed here made failed before =>
    cases h' with
    | construction j first' => exact (apart first' constructed).elim
    | signing j given' order' _ here' made' failed' before' =>
      have place : i = j := Nat.le_antisymm
        (Nat.not_lt.1 (not_lt_of_signing here' made' failed' before))
        (Nat.not_lt.1 (not_lt_of_signing here made failed before'))
      subst place
      cases here.symm.trans here'
      cases made.symm.trans made'
      cases failed.symm.trans failed'
      rfl

/-! ## Composition -/

/-- What is posted for an order does not depend on the batch it is in. -/
theorem Composed.samePart {i : Nat} (h : env.Composed requests request)
    (h' : env.Composed others request') (here : i < requests.length)
    (same : others[i]? = requests[i]?) : SamePart i request request' := by
  obtain ⟨orders, -, -, parts⟩ := h.parts
  obtain ⟨orders', -, -, parts'⟩ := h'.parts
  have found := List.getElem?_eq_getElem here
  obtain ⟨order, result, built, -, combination, payload, signature, affiliate⟩ := parts i _ found
  obtain ⟨order', result', built', -, combination', payload', signature', affiliate'⟩ :=
    parts' i _ (same.trans found)
  obtain ⟨rfl, rfl⟩ := built.unique built'
  refine ⟨fun kind hkind => ?_, combination.trans combination'.symm⟩
  simp only [Mutation.kinds, List.mem_cons, List.not_mem_nil, or_false] at hkind
  rcases hkind with rfl | rfl | rfl
  · exact payload.trans payload'.symm
  · exact signature.trans signature'.symm
  · exact affiliate.trans affiliate'.symm

/-- A batch comes to what its requests come to one by one. -/
structure Pointwise (env : Setting) (requests : List LimitRequest) : Prop where
  /-- However the build is interleaved with tasks that leave the markets, the signer and the
  nonces alone, it comes to the same. -/
  settled : ∀ (seen : Session → Prop) asked outcome, (∀ t, seen t → Agrees env.session t) →
    Course seen (limits env.service env.time requests) asked outcome →
    (∀ exchange ∈ asked, exchange.answer = env.respond exchange.question) →
    outcome = env.batch requests
  returned_iff : (∃ request, env.batch requests = .returned request) ↔ env.Buildable requests
  composed : ∀ request, env.batch requests = .returned request → env.Composed requests request
  /-- With other requests around it that can be built, an order keeps its part. -/
  independent : ∀ (i : Nat) (others : List LimitRequest), i < requests.length →
    others[i]? = requests[i]? → env.Buildable others → ∀ request,
    env.batch requests = .returned request →
    ∃ request', env.batch others = .returned request' ∧ SamePart i request request'
  failed_iff : ∀ e, env.batch requests = .failed e ↔ env.Refused requests e
  decided : (∃ request, env.batch requests = .returned request) ∨
    ∃ e, env.batch requests = .failed e

theorem returned_iff (some : requests ≠ []) :
    (∃ request, env.batch requests = .returned request) ↔ env.Buildable requests := by
  rcases batch_cases env some with ⟨⟨request, returned, -⟩, all⟩ | ⟨e, failed, refused⟩
  · exact iff_of_true ⟨request, returned⟩ all
  · refine iff_of_false ?_ refused.not_buildable
    rintro ⟨request, returned⟩
    cases failed.symm.trans returned

theorem failed_iff (some : requests ≠ []) (e : Failure) :
    env.batch requests = .failed e ↔ env.Refused requests e := by
  rcases batch_cases env some with ⟨⟨request, returned, -⟩, all⟩ | ⟨e', failed, refused⟩
  · refine iff_of_false (fun failed => ?_) fun refused => refused.not_buildable all
    cases failed.symm.trans returned
  · constructor
    · intro failed'
      cases failed.symm.trans failed'
      exact refused
    · intro refused'
      rw [failed, refused.unique refused']

theorem composed_of_returned (some : requests ≠ []) (h : env.batch requests = .returned request) :
    env.Composed requests request := by
  rcases batch_cases env some with ⟨⟨request', returned, parts⟩, -⟩ | ⟨e, failed, -⟩
  · cases h.symm.trans returned
    exact parts
  · cases h.symm.trans failed

/-- **A batch of limit orders is the composition of its orders**, in their order and each
independent of the others. -/
theorem limits_pointwise (env : Setting) (requests : List LimitRequest) (some : requests ≠ []) :
    env.Pointwise requests := by
  constructor
  case settled =>
    intro seen asked outcome agree course answered
    exact (determinate_limits agree env.service env.time requests).outcome_eq course answered
  case returned_iff => exact returned_iff some
  case composed => exact fun request => composed_of_returned some
  case independent =>
    intro i others here same buildable request returned
    have someOthers : others ≠ [] := by
      rintro rfl
      rw [List.getElem?_nil, List.getElem?_eq_getElem here] at same
      cases same
    obtain ⟨request', returned'⟩ := (returned_iff someOthers).2 buildable
    exact ⟨request', returned', (composed_of_returned some returned).samePart
      (composed_of_returned someOthers returned') here same⟩
  case failed_iff => exact failed_iff some
  case decided =>
    rcases batch_cases env some with ⟨⟨request, returned, -⟩, -⟩ | ⟨e, failed, -⟩
    · exact .inl ⟨request, returned⟩
    · exact .inr ⟨e, failed⟩

/-- A purchase keeps its part when a sale takes the place of the purchase before it. -/
theorem limits_pointwise_sample :
    ∃ (env : Setting) (purchase sale : LimitRequest) (request request' : SignedRequest),
      [purchase, purchase] ≠ [] ∧ purchase ≠ sale ∧
      env.batch [purchase, purchase] = .returned request ∧
      env.batch [sale, purchase] = .returned request' ∧ SamePart 1 request request' := by
  let env : Setting := ⟨Sample.service, 1000, Sample.session, world.answer⟩
  let sale : LimitRequest :=
    ⟨"neo_gas", .sell, ⟨false, 2, 0⟩, ⟨false, 5, -1⟩, .standard, true, none⟩
  obtain ⟨request, returned⟩ := Outcome.exists_of_value?
    (show (env.batch [Sample.limitRequest, Sample.limitRequest]).value?.isSome by decide +kernel)
  obtain ⟨other, returned'⟩ := Outcome.exists_of_value?
    (show (env.batch [sale, Sample.limitRequest]).value?.isSome by decide +kernel)
  have buildable : env.Buildable [sale, Sample.limitRequest] :=
    (returned_iff (List.cons_ne_nil _ _)).1 ⟨other, returned'⟩
  obtain ⟨request', same, part⟩ :=
    (limits_pointwise env [Sample.limitRequest, Sample.limitRequest]
      (List.cons_ne_nil _ _)).independent 1 [sale, Sample.limitRequest] (by decide) rfl buildable
        request returned
  exact ⟨env, Sample.limitRequest, sale, request, request', List.cons_ne_nil _ _, by decide,
    returned, same, part⟩

end Setting

end SignedOrders.Session
