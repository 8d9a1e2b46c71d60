import SignedOrders.Proofs.Session.Refusals

/-!
# How builds end

A build gives a request whose orders are all signed on every chain and as a text
(`FullySigned`), or it fails for a reason of the step that was running (`Refusal`).  The only
failures that belong to no stage are those of requests that overreach their market and of names
that cannot be taken apart, and there is no other end for these (`build_outcome`).  One such
request is enough to show that not every failure is staged (`exists_unstaged`).
-/

namespace SignedOrders.Session

open Tasks Build

variable {service : Service} {seen : Session → Prop} {asked : List (Exchange signing)} {time : ℤ}

/-! ## Requests that are given -/

/-- An order is posted with a signature for each chain of its market and each of its
combinations, and with one of its text that a signer has given. -/
structure Sealed (asked : List (Exchange signing)) (market : Market) (combinations : ℕ)
    (signatures : List BlockchainSignature) (signature : RequestSignature) : Prop where
  fills : signatures.length = market.chains.length * combinations
  text : ∃ (signer : Signer) (text : String), ⟨(signer, .text text), .ok signature⟩ ∈ asked

/-- A request of `count` orders that are all signed. -/
inductive FullySigned (asked : List (Exchange signing)) (count : ℕ) (request : SignedRequest) :
    Prop
  | limits (orders : List LimitOrder) (postings : List LimitPosting)
      (placement : request.placement = .limits orders) (all : orders.length = count)
      (body : Mutation.ofLimitOrders postings = .ok request.body)
      (each : List.Forall₂ (fun order posting => Sealed asked order.market 1
        posting.payload.blockchainSignatures posting.signature) orders postings)
  | market (order : MarketOrder) (posting : MarketPosting)
      (placement : request.placement = .market order) (all : count = 1)
      (body : request.body = Mutation.ofMarketOrder posting)
      (signed : Sealed asked order.market request.combinations.length
        posting.payload.blockchainSignatures posting.signature)

theorem sealed_of_signed [Payload π] {signer : Signer} {v : Posting π}
    {signatures : List BlockchainSignature} {posting : Posting π} {text : String}
    {filled sealed : List (Exchange signing)} (sub : filled ++ sealed ⊆ asked)
    (h : Course seen (signed signer v signatures) sealed (.returned (posting, text))) :
    ∃ (signer : Signer) (text : String),
      ⟨(signer, .text text), .ok posting.signature⟩ ∈ asked := by
  obtain ⟨answer, rfl, posted, -⟩ := parts_of_signed h
  obtain rfl : posting.signature = answer := congrArg Posting.signature posted
  exact ⟨signer, text, sub (List.mem_append_right _ List.mem_cons_self)⟩

theorem sealed_of_signLimit {index : ℕ} {order : LimitOrder} {result : SignedLimit}
    {segment : List (Exchange signing)} (sub : segment ⊆ asked)
    (trades : Trades order.market order.source.asset order.destination)
    (h : Course seen (signLimit service time index order) segment (.returned result)) :
    Sealed asked order.market 1 result.posting.payload.blockchainSignatures
      result.posting.signature := by
  obtain ⟨signer, -, product⟩ := signedProduct_of_signLimit trades h
  obtain ⟨signer, v, signatures, filled, sealed, rfl, -, -, -, hsealed, -⟩ := parts_of_signLimit h
  exact ⟨product.count, sealed_of_signed sub hsealed⟩

/-- **A batch that is given is fully signed.** -/
theorem fullySigned_of_limits {requests : List LimitRequest} {request : SignedRequest}
    (h : Course seen (limits service time requests) asked (.returned request)) :
    FullySigned asked requests.length request := by
  obtain ⟨orders, signed, made, signedEach, body, placement, -⟩ := parts_of_limits h
  refine .limits orders (signed.map (·.posting)) placement made.length body ?_
  -- the market of an order is known from its request, and its signatures from its course
  have placed : List.Forall₂ (fun given order =>
      ∃ market, LimitOrder.ofRequest market given = .ok order) requests orders :=
    made.forall₂ (List.Subset.refl _) fun _ _ _ _ _ course => (parts_of_limitOrder course).2
  rw [← List.zipIdx_map_fst 0 orders, List.forall₂_map_left_iff, List.forall₂_map_right_iff]
  refine signedEach.forall₂ (List.Subset.refl _) fun pair hpair segment result sub course => ?_
  obtain ⟨given, -, market, placedOne⟩ :=
    exists_of_forall₂ placed (List.fst_mem_of_mem_zipIdx hpair)
  exact sealed_of_signLimit sub (trades_of_limit placedOne) course

/-- **A market order that is given is fully signed.** -/
theorem fullySigned_of_market {given : MarketRequest} {request : SignedRequest}
    (h : Course seen (Build.market service time given) asked (.returned request)) :
    FullySigned asked 1 request := by
  obtain ⟨order, signer, posting, text, v, signatures, filled, sealed, rfl, ⟨market, made⟩, -,
    hfilled, hsealed, body, placed, -, s, sources, destinations, -, -, -, chosen⟩ :=
    parts_of_market h
  obtain ⟨-, attached⟩ := attached_of_signed hsealed
  have product := signedProduct_of_signatures (Combination.pooled_of_expand chosen)
    (trades_of_market made) hfilled
  refine .market order posting placed rfl body ⟨?_, sealed_of_signed (List.Subset.refl _) hsealed⟩
  rw [attached]
  exact product.count

/-! ## Requests that reach too far -/

/-- A name that cannot be taken apart is not resolved. -/
theorem resolve_of_inseparable {s : Session} {name : String} (empty : service.separator = "")
    (absent : s.catalog.get? name = none) :
    s.catalog.resolve service.separator name = .error (.of .emptySeparator) := by
  unfold Catalog.resolve
  rw [absent, if_pos empty]
  rfl

/-- What follows the choice of a market can count on one that is overreached. -/
theorem ensures_escaping_bind (regular : ∀ s, seen s → s.Regular) {name : String}
    {overreaches : Market → Prop} {f : Market → Action β}
    {gives : List (Exchange signing) → β → Prop}
    (escapes : ∀ s, seen s → Escapes service s name overreaches)
    (found : ∀ market, market.Placed → overreaches market →
      Ensures seen WellAnswered (f market) gives (fun _ e => e.stage = none)) :
    Ensures seen WellAnswered ((resolve service name).bind f) gives
      (fun _ e => e.stage = none) := by
  refine ensures_read_bind (fun s market hs chosen => ?_) fun s e hs failed => ?_
  · rcases escapes s hs with ⟨empty, absent⟩ | ⟨market', chosen', overreach⟩
    · cases (resolve_of_inseparable empty absent).symm.trans chosen
    · cases chosen.symm.trans chosen'
      exact found market ((regular s hs).placed chosen) overreach
  · rcases escapes s hs with ⟨empty, absent⟩ | ⟨market, chosen, -⟩
    · cases (resolve_of_inseparable empty absent).symm.trans failed
      rfl
    · cases failed.symm.trans chosen

/-- The order cannot be posted, and that belongs to no stage. -/
def Unpostable (order : LimitOrder) : Prop :=
  ∀ time index affiliate, ∃ e : Failure, order.posting time index affiliate = .error e ∧
    e.stage = none

/-- The order of a request that overreaches is not placed, or cannot be posted. -/
theorem ensures_limitOrder_escaping (regular : ∀ s, seen s → s.Regular) {given : LimitRequest}
    (escapes : ∀ s, seen s → Escapes service s given.market given.Overreaches) :
    Ensures seen WellAnswered (limitOrder service given) (fun _ => Unpostable)
      (fun _ e => e.stage = none) := by
  refine ensures_escaping_bind regular escapes fun market places overreach => ?_
  rcases overreach.fails places with ⟨e, failed, bare⟩ | ⟨order, placed, posts⟩
  · exact ensures_error failed bare
  · exact ensures_ok placed posts

/-- An order that cannot be posted is not signed. -/
theorem ensures_signLimit_unpostable {index : ℕ} {order : LimitOrder} (h : Unpostable order) :
    Ensures seen WellAnswered (signLimit service time index order) (fun _ _ => False)
      (fun _ e => e.stage = none) := by
  obtain ⟨e, failed, bare⟩ := h time index service.affiliate
  exact ensures_error_bind failed bare

/-- **A batch of one request that overreaches fails in no stage.** -/
theorem ensures_limits_escaping (regular : ∀ s, seen s → s.Regular) {given : LimitRequest}
    (escapes : ∀ s, seen s → Escapes service s given.market given.Overreaches) :
    Ensures seen WellAnswered (limits service time [given]) (fun _ _ => False)
      (fun _ e => e.stage = none) := by
  have placing : Ensures seen WellAnswered (Plan.collect (limitOrder service) [given])
      (fun _ orders => ∃ order, orders = [order] ∧ Unpostable order) (fun _ e => e.stage = none) :=
    (ensures_limitOrder_escaping regular escapes).bind_late (fun _ _ _ => id)
      fun order posts => ensures_done ⟨order, rfl, posts⟩
  refine placing.bind_late (fun _ _ _ => id) ?_
  rintro _ ⟨order, rfl, posts⟩
  refine Ensures.bind_late (fun _ _ _ => id) ?_ fun _ (no : False) => no.elim
  exact Ensures.collect_cons (fun _ _ _ => id) (ensures_signLimit_unpostable posts)

/-- **A market order whose request overreaches fails in no stage.** -/
theorem ensures_market_escaping (regular : ∀ s, seen s → s.Regular) {given : MarketRequest}
    (escapes : ∀ s, seen s → Escapes service s given.market given.Overreaches) :
    Ensures seen WellAnswered (Build.market service time given) (fun _ _ => False)
      (fun _ e => e.stage = none) := by
  refine ensures_escaping_bind regular escapes fun market places overreach => ?_
  obtain ⟨e, arithmetic, failed⟩ :=
    Side.quantity_of_overreaches (Given.figure?_figure _) places.base overreach
  have unplaced : MarketOrder.ofRequest market given = .error e :=
    map_eq_error.2 (map_eq_error.2 failed)
  exact ensures_error_bind unplaced arithmetic.stage

/-! ## All ends of a build -/

/-- **A build gives a fully signed request, or fails for a reason of the step that was running,
in its stage.**  The data that is seen is that of regular sessions, and the signers answer with
signatures in range or refuse.  What else can happen is the failure of a request that
overreaches its market or of a name that cannot be taken apart; for a batch of one such request,
or a market order, nothing else can. -/
theorem build_outcome (service : Service) (time : ℤ) (seen : Session → Prop)
    (asked : List (Exchange signing)) (regular : ∀ s, seen s → s.Regular)
    (answers : ∀ exchange ∈ asked, WellAnswered exchange) :
    (∀ requests outcome, requests ≠ [] →
      Course seen (limits service time requests) asked outcome →
        (∃ request, outcome = .returned request ∧ FullySigned asked requests.length request) ∨
          ∃ e, outcome = .failed e ∧ Refusal service time seen
            (∃ given ∈ requests, Overreached service seen given) asked e) ∧
    (∀ given outcome, Course seen (Build.market service time given) asked outcome →
      (∃ request, outcome = .returned request ∧ FullySigned asked 1 request) ∨
        ∃ e, outcome = .failed e ∧ Refusal service time seen
          (∃ s, seen s ∧ Escapes service s given.market given.Overreaches) asked e) ∧
    (∀ (given : LimitRequest) outcome,
      (∀ s, seen s → Escapes service s given.market given.Overreaches) →
        Course seen (limits service time [given]) asked outcome →
          ∃ e, outcome = .failed e ∧ e.stage = none) ∧
    ∀ (given : MarketRequest) outcome,
      (∀ s, seen s → Escapes service s given.market given.Overreaches) →
        Course seen (Build.market service time given) asked outcome →
          ∃ e, outcome = .failed e ∧ e.stage = none := by
  refine ⟨fun requests outcome some course => ?_, fun given outcome course => ?_,
    fun given outcome escapes course => ?_, fun given outcome escapes course => ?_⟩
  · refine (ensures_limits regular time some asked outcome course answers).imp ?_ id
    rintro ⟨request, rfl, -⟩
    exact ⟨request, rfl, fullySigned_of_limits course⟩
  · refine (ensures_market regular time given asked outcome course answers).imp ?_ id
    rintro ⟨request, rfl, -⟩
    exact ⟨request, rfl, fullySigned_of_market course⟩
  · rcases ensures_limits_escaping regular escapes asked outcome course answers with
      ⟨request, -, ⟨⟩⟩ | failed
    exact failed
  · rcases ensures_market_escaping regular escapes asked outcome course answers with
      ⟨request, -, ⟨⟩⟩ | failed
    exact failed

/-! ## A session to try it on -/

namespace Sample

/-- An order at a price whose cost has more digits than are kept. -/
def boundless : LimitRequest :=
  ⟨"neo_gas", .buy, ⟨false, 1, 0⟩, ⟨false, 1, 21⟩, .standard, true, none⟩

theorem regular : session.Regular := by
  have entries : session.catalog.entries = [("neo_gas", ⟨⟨.neo, 8⟩, ⟨.gas, 8⟩, false⟩)] := by
    decide
  constructor
  · rintro pools ⟨⟩
    unfold Pools.Sound
    decide
  · rw [entries]
    exact List.forall_mem_singleton.2 ⟨by decide, by decide⟩

theorem wellAnswered_answer (question : signing.Question) :
    question.2.WellAnswered (answer question) := by
  obtain ⟨asked, call⟩ := question
  cases call with
  | publicKey chain => trivial
  | digest chain octets => exact ⟨by decide, by decide, .inl rfl⟩
  | text canonical => trivial

theorem wellAnswered {exchanges : List (Exchange signing)}
    (h : ∀ exchange ∈ exchanges, exchange.answer = answer exchange.question) :
    ∀ exchange ∈ exchanges, WellAnswered exchange := by
  intro exchange hexchange
  rw [WellAnswered, h exchange hexchange]
  exact wellAnswered_answer exchange.question

theorem boundless_escapes (s : Session) (h : s = session) :
    Escapes Sample.service s boundless.market boundless.Overreaches := by
  subst h
  refine .inr ⟨⟨⟨.neo, 8⟩, ⟨.gas, 8⟩, false⟩, by decide +kernel, ?_⟩
  exact .cost ⟨false, 100000000, -8⟩ rfl (by decide +kernel) rfl (.inr (by decide +kernel))

end Sample

/-- **Some failure belongs to no stage**: buying one for a price of `10 ^ 21` on a market with
eight places fails by arithmetic alone, and for none of the reasons that belong to a stage. -/
theorem exists_unstaged :
    Sample.session.Regular ∧ ∃ asked, (∀ exchange ∈ asked, WellAnswered exchange) ∧
      Course (· = Sample.session) (limits Sample.service 1000 [Sample.boundless]) asked
        (.failed (.ofSignal .invalidOperation)) ∧
      ¬(asked = [] ∧
          Unplaced Sample.service (· = Sample.session) (.ofSignal .invalidOperation) ∨
        Unsigned 1000 (· = Sample.session) asked (.ofSignal .invalidOperation)) := by
  refine ⟨Sample.regular, ?_⟩
  obtain ⟨-, asked, course, answered⟩ :=
    (readOnly_limits Sample.service 1000 [Sample.boundless]).evaluate Sample.answer Sample.session
  have failed : ((limits Sample.service 1000 [Sample.boundless]).evaluate Sample.answer
      Sample.session).2 = .failed (.ofSignal .invalidOperation) := rfl
  refine ⟨asked, Sample.wellAnswered answered, failed ▸ course, ?_⟩
  rintro (⟨-, unplaced⟩ | unsigned)
  · generalize failure : Failure.ofSignal .invalidOperation = e at unplaced
    cases unplaced <;> cases failure
  · generalize failure : Failure.ofSignal .invalidOperation = e at unsigned
    cases unsigned <;> cases failure

/-- Two orders at once and an order for every combination end fully signed, and the order at a
boundless price ends in no stage. -/
theorem build_outcome_sample :
    (∃ asked request, Course (· = Sample.session)
      (limits Sample.service 1000 [Sample.limitRequest, Sample.limitRequest]) asked
        (.returned request) ∧ FullySigned asked 2 request) ∧
      (∃ asked request, Course (· = Sample.session)
        (Build.market Sample.service 1000 Sample.marketRequest) asked (.returned request) ∧
          FullySigned asked 1 request) ∧
      ∃ asked e, Course (· = Sample.session) (limits Sample.service 1000 [Sample.boundless]) asked
        (.failed e) ∧ e.stage = none := by
  have regular : ∀ s, s = Sample.session → s.Regular := by
    rintro _ rfl
    exact Sample.regular
  refine ⟨?_, ?_, ?_⟩
  · obtain ⟨-, asked, course, answered⟩ := (readOnly_limits Sample.service 1000
      [Sample.limitRequest, Sample.limitRequest]).evaluate Sample.answer Sample.session
    have given := Sample.limits_given
    rcases (build_outcome Sample.service 1000 (· = Sample.session) asked regular
      (Sample.wellAnswered answered)).1 _ _ (List.cons_ne_nil _ _) course with
      ⟨request, returned, full⟩ | ⟨e, failed, -⟩
    · exact ⟨asked, request, returned ▸ course, full⟩
    · rw [failed] at given
      cases given
  · obtain ⟨-, asked, course, answered⟩ := (readOnly_market Sample.service 1000
      Sample.marketRequest).evaluate Sample.answer Sample.session
    have given := Sample.market_given
    rcases (build_outcome Sample.service 1000 (· = Sample.session) asked regular
      (Sample.wellAnswered answered)).2.1 _ _ course with
      ⟨request, returned, full⟩ | ⟨e, failed, -⟩
    · exact ⟨asked, request, returned ▸ course, full⟩
    · rw [failed] at given
      cases given
  · obtain ⟨-, asked, course, answered⟩ := (readOnly_limits Sample.service 1000
      [Sample.boundless]).evaluate Sample.answer Sample.session
    obtain ⟨e, failed, bare⟩ := (build_outcome Sample.service 1000 (· = Sample.session) asked
      regular (Sample.wellAnswered answered)).2.2.1 _ _ Sample.boundless_escapes course
    exact ⟨asked, e, failed ▸ course, bare⟩

end SignedOrders.Session
