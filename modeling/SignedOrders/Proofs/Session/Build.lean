import SignedOrders.Proofs.Failure
import SignedOrders.Proofs.Tasks.Course
import SignedOrders.Session.Build
import SignedOrders.Signer.Rehearsal

/-!
# What a build has gone through

A build that gives a request has resolved its markets, found the pools of its assets at
some moment for each order, and asked the signer.  This holds however the build is
interleaved with other tasks: every statement is about any course of the build.

The text of a request is signed once for each order (`texts`), and the nonces of an
order come from pools that the build has seen.
-/

namespace SignedOrders.Session

open Tasks

/-- The texts that were given to signers, with the answers. -/
def texts (asked : List (Exchange signing)) : List (String × Except Failure RequestSignature) :=
  asked.filterMap fun exchange =>
    match exchange with
    | ⟨(_, .text text), answer⟩ => some (text, answer)
    | _ => none

@[simp] theorem texts_nil : texts [] = [] := rfl

@[simp] theorem texts_append (before after : List (Exchange signing)) :
    texts (before ++ after) = texts before ++ texts after :=
  List.filterMap_append

namespace Build

variable {seen : Session → Prop} {asked : List (Exchange signing)}

theorem course_attempt {r : Except Failure α} {a : α}
    (h : Course seen (attempt r) asked (.returned a)) : r = .ok a ∧ asked = [] :=
  course_ofExcept_iff.1 h

theorem course_pools {source destination : Asset} {pair : List Int × List Int}
    (h : Course seen (pools source destination) asked (.returned pair)) :
    asked = [] ∧ ∃ s, seen s ∧ s.pool source.ticker = .ok pair.1 ∧
      s.pool destination.ticker = .ok pair.2 := by
  obtain ⟨⟨s, hs, hlook⟩, rfl⟩ := course_read_iff.1 h
  obtain ⟨sources, hsources, hlook⟩ := bind_eq_ok.1 hlook
  obtain ⟨destinations, hdestinations, hlook⟩ := bind_eq_ok.1 hlook
  cases hlook
  exact ⟨rfl, s, hs, hsources, hdestinations⟩

/-! ## Signatures of fill orders -/

/-- A call that gives something has been made once and answered so. -/
theorem course_call {signer : Signer} {call : SignerCall} {answer : call.Answer}
    (h : Course seen (Build.call signer call) asked (.returned answer)) :
    asked = [⟨(signer, call), .ok answer⟩] := by
  obtain ⟨given, later, rfl, rest⟩ := course_ask_iff.1 h
  obtain ⟨rfl, rfl⟩ := course_attempt rest
  rfl

/-- For a combination the signer is asked once, for the digest of its fill order. -/
theorem course_fillSignature {signer : Signer} {chain : Chain} {key : Key} {source : Amount}
    {destination : Asset} {c : Combination} {entry : BlockchainSignature}
    (h : Course seen (fillSignature signer chain key source destination c) asked
      (.returned entry)) :
    ∃ order octets signature, FillOrder.make chain source destination key c = .ok order ∧
      order.encode = .ok octets ∧
      asked = [⟨(signer, .digest order.chain (FillOrder.hash order.chain octets)),
        .ok signature⟩] ∧
      Signer.attest order key signature = .ok entry := by
  obtain ⟨order, _, _, rfl, made, rest₁⟩ := course_bind_iff.1 h
  obtain ⟨hmade, rfl⟩ := course_attempt made
  obtain ⟨digest, _, _, rfl, hashed, rest₂⟩ := course_bind_iff.1 rest₁
  obtain ⟨hdigest, rfl⟩ := course_attempt hashed
  obtain ⟨signature, _, _, rfl, called, rest₃⟩ := course_bind_iff.1 rest₂
  obtain ⟨attested, rfl⟩ := course_attempt rest₃
  obtain ⟨octets, encoded, rfl⟩ := map_eq_ok.1 hdigest
  rw [course_call called]
  exact ⟨order, octets, signature, hmade, encoded, rfl, attested⟩

/-- For a chain the signer is asked for the key, then for each combination. -/
theorem course_chainSignatures {signer : Signer} {source : Amount} {destination : Asset}
    {combinations : List Combination} {chain : Chain} {entries : List BlockchainSignature}
    (h : Course seen (chainSignatures signer source destination combinations chain) asked
      (.returned entries)) :
    ∃ key fills, asked = ⟨(signer, .publicKey chain), .ok key⟩ :: fills ∧
      Courses seen (fillSignature signer chain key source destination) combinations fills
        entries := by
  obtain ⟨key, _, fills, rfl, called, rest₁⟩ := course_bind_iff.1 h
  rw [course_call called]
  exact ⟨key, fills, rfl, courses_of_collect rest₁⟩

/-- The signatures of a market's chains, one chain after another. -/
theorem course_signatures {signer : Signer} {market : Market} {source : Amount}
    {destination : Asset} {combinations : List Combination} {entries : List BlockchainSignature}
    (h : Course seen (Build.signatures signer market source destination combinations) asked
      (.returned entries)) :
    ∃ lists : List (List BlockchainSignature), entries = lists.flatten ∧
      Courses seen (chainSignatures signer source destination combinations) market.chains asked
        lists := by
  obtain ⟨lists, _, _, rfl, collected, rest₁⟩ := course_bind_iff.1 h
  obtain ⟨rfl, rfl⟩ := course_done_iff.1 rest₁
  rw [List.append_nil]
  exact ⟨lists, rfl, courses_of_collect collected⟩

theorem texts_fillSignature {signer : Signer} {chain : Chain} {key : Key} {source : Amount}
    {destination : Asset} {c : Combination} {signature : BlockchainSignature}
    (h : Course seen (fillSignature signer chain key source destination c) asked
      (.returned signature)) : texts asked = [] := by
  obtain ⟨order, octets, answer, -, -, rfl, -⟩ := course_fillSignature h
  rfl

/-- Plans that sign no text sign none for a list. -/
theorem texts_courses {f : α → Action β} {items : List α} {values : List β}
    (hf : ∀ a asked b, Course seen (f a) asked (.returned b) → texts asked = [])
    (h : Courses seen f items asked values) : texts asked = [] := by
  induction h with
  | nil => rfl
  | cons first _ ih => rw [texts_append, hf _ _ _ first, ih, List.append_nil]

theorem texts_chainSignatures {signer : Signer} {source : Amount} {destination : Asset}
    {combinations : List Combination} {chain : Chain} {signatures : List BlockchainSignature}
    (h : Course seen (chainSignatures signer source destination combinations chain) asked
      (.returned signatures)) : texts asked = [] := by
  obtain ⟨key, fills, rfl, each⟩ := course_chainSignatures h
  have none : texts fills = [] := texts_courses (fun _ _ _ => texts_fillSignature) each
  exact none

theorem texts_signatures {signer : Signer} {market : Market} {source : Amount}
    {destination : Asset} {combinations : List Combination} {signatures : List BlockchainSignature}
    (h : Course seen (Build.signatures signer market source destination combinations) asked
      (.returned signatures)) : texts asked = [] := by
  obtain ⟨lists, -, each⟩ := course_signatures h
  exact texts_courses (fun _ _ _ => texts_chainSignatures) each

/-! ## Signatures of texts -/

/-- A posting gets its signatures, and its text is given to the signer once. -/
theorem parts_of_signed [Payload π] {signer : Signer} {v : Posting π}
    {signatures : List BlockchainSignature} {result : Posting π × String}
    (h : Course seen (signed signer v signatures) asked (.returned result)) :
    ∃ answer, asked = [⟨(signer, .text result.2), .ok answer⟩] ∧
      result.1 = ⟨Payload.withSignatures v.payload signatures, answer, v.affiliate⟩ ∧
      Canonical.ofPosting .standard (Payload.operation π)
        { result.1 with signature := v.signature } [] = .ok result.2 := by
  obtain ⟨text, _, _, rfl, written, rest₁⟩ := course_bind_iff.1 h
  obtain ⟨htext, rfl⟩ := course_attempt written
  obtain ⟨signature, _, _, rfl, called, rest₂⟩ := course_bind_iff.1 rest₁
  obtain ⟨rfl, rfl⟩ := course_done_iff.1 rest₂
  obtain ⟨answer, later, rfl, answered⟩ := course_ask_iff.1 called
  obtain ⟨hanswer, rfl⟩ := course_attempt answered
  rw [mapError_eq_ok.1 hanswer]
  exact ⟨signature, rfl, rfl, htext⟩

/-- The posting is signed once, over the text of its payload. -/
theorem course_signed [Payload π] {signer : Signer} {v : Posting π}
    {signatures : List BlockchainSignature} {result : Posting π × String}
    (h : Course seen (signed signer v signatures) asked (.returned result)) :
    texts asked = [(result.2, .ok result.1.signature)] ∧
      Canonical.ofPosting .standard (Payload.operation π)
        { result.1 with signature := v.signature } [] = .ok result.2 := by
  obtain ⟨answer, rfl, posted, written⟩ := parts_of_signed h
  rw [posted] at written ⊢
  exact ⟨rfl, written⟩

/-! ## Limit orders -/

/-- What a limit order goes through: its posting is made, the newest nonces are chosen from
pools that were seen at one moment, and a signer signs the fill orders and the text. -/
theorem parts_of_signLimit {service : Service} {time : Int} {index : Nat} {order : LimitOrder}
    {result : SignedLimit}
    (h : Course seen (signLimit service time index order) asked (.returned result)) :
    ∃ signer v signatures filled sealed, asked = filled ++ sealed ∧
      order.posting time index service.affiliate = .ok v ∧
      (∃ s, seen s ∧ s.getSigner = .ok signer) ∧
      Course seen (Build.signatures signer order.market order.source order.destination
        [result.combination]) filled (.returned signatures) ∧
      Course seen (signed signer v signatures) sealed (.returned (result.posting, result.text.2)) ∧
      ∃ s sources destinations, seen s ∧ s.pool order.source.asset.ticker = .ok sources ∧
        s.pool order.destination.ticker = .ok destinations ∧
        Combination.latest sources destinations (Nonce.ofClock time index) =
          .ok result.combination := by
  obtain ⟨v, _, _, rfl, made, rest₁⟩ := course_bind_iff.1 h
  obtain ⟨posted, rfl⟩ := course_attempt made
  obtain ⟨⟨sources, destinations⟩, _, _, rfl, found, rest₂⟩ := course_bind_iff.1 rest₁
  obtain ⟨rfl, s, hs, hsources, hdestinations⟩ := course_pools found
  obtain ⟨c, _, _, rfl, chosen, rest₃⟩ := course_bind_iff.1 rest₂
  obtain ⟨hc, rfl⟩ := course_attempt chosen
  obtain ⟨signer, _, _, rfl, attached, rest₄⟩ := course_bind_iff.1 rest₃
  obtain ⟨held, rfl⟩ := course_read_iff.1 attached
  obtain ⟨signatures, filled, _, rfl, hfilled, rest₅⟩ := course_bind_iff.1 rest₄
  obtain ⟨⟨posting, text⟩, sealed, _, rfl, hsealed, rest₆⟩ := course_bind_iff.1 rest₅
  obtain ⟨rfl, rfl⟩ := course_done_iff.1 rest₆
  refine ⟨signer, v, signatures, filled, sealed, ?_, posted, held, hfilled, hsealed, s, sources,
    destinations, hs, hsources, hdestinations, hc⟩
  simp only [List.nil_append, List.append_nil]

/-- A limit order is signed once, for the newest nonces of pools that were seen at one
moment. -/
theorem course_signLimit {service : Service} {time : Int} {index : Nat} {order : LimitOrder}
    {result : SignedLimit}
    (h : Course seen (signLimit service time index order) asked (.returned result)) :
    texts asked = [(result.text.2, .ok result.posting.signature)] ∧
      (∃ unsigned, Canonical.ofPosting .standard (Payload.operation LimitPayload)
        { result.posting with signature := unsigned } [] = .ok result.text.2) ∧
      ∃ s sources destinations, seen s ∧ s.pool order.source.asset.ticker = .ok sources ∧
        s.pool order.destination.ticker = .ok destinations ∧
        Combination.latest sources destinations (Nonce.ofClock time index) =
          .ok result.combination := by
  obtain ⟨signer, v, signatures, filled, sealed, rfl, -, -, hfilled, hsealed, chosen⟩ :=
    parts_of_signLimit h
  obtain ⟨signedOnce, written⟩ := course_signed hsealed
  refine ⟨?_, ⟨_, written⟩, chosen⟩
  rw [texts_append, texts_signatures hfilled, signedOnce, List.nil_append]

/-- The order of a request is made on a market that was seen, without asking. -/
theorem parts_of_limitOrder {service : Service} {request : LimitRequest} {order : LimitOrder}
    (h : Course seen (limitOrder service request) asked (.returned order)) :
    asked = [] ∧ ∃ market, LimitOrder.ofRequest market request = .ok order := by
  obtain ⟨market, _, _, rfl, found, rest₁⟩ := course_bind_iff.1 h
  obtain ⟨-, rfl⟩ := course_read_iff.1 found
  obtain ⟨made, rfl⟩ := course_attempt rest₁
  exact ⟨rfl, market, made⟩

/-- What a batch goes through: an order is made for each request, then each is signed. -/
theorem parts_of_limits {service : Service} {time : Int} {requests : List LimitRequest}
    {request : SignedRequest}
    (h : Course seen (limits service time requests) asked (.returned request)) :
    ∃ orders signed, Courses seen (limitOrder service) requests [] orders ∧
      Courses seen (fun pair : LimitOrder × Nat => signLimit service time pair.2 pair.1)
        orders.zipIdx asked signed ∧
      Mutation.ofLimitOrders (signed.map (·.posting)) = .ok request.body ∧
      request.placement = .limits orders ∧
      request.combinations = signed.map (·.combination) ∧ request.committed = false := by
  unfold limits at h
  split at h
  · cases h
  obtain ⟨orders, resolving, _, rfl, made, rest₁⟩ := course_bind_iff.1 h
  obtain ⟨signed, inner, _, rfl, signedEach, rest₂⟩ := course_bind_iff.1 rest₁
  obtain ⟨body, _, _, rfl, posted, rest₃⟩ := course_bind_iff.1 rest₂
  obtain ⟨hbody, rfl⟩ := course_attempt posted
  obtain ⟨rfl, rfl⟩ := course_done_iff.1 rest₃
  have resolved := courses_of_collect made
  obtain rfl := resolved.asked_eq_nil fun _ _ _ course => (parts_of_limitOrder course).1
  refine ⟨orders, signed, resolved, ?_, hbody, rfl, rfl, rfl⟩
  rw [List.nil_append, List.append_nil, List.append_nil]
  exact courses_of_collect signedEach

/-- **A batch** is made of one order for each request, each signed by itself. -/
theorem course_limits {service : Service} {time : Int} {requests : List LimitRequest}
    {request : SignedRequest}
    (h : Course seen (limits service time requests) asked (.returned request)) :
    ∃ orders signed inner, orders.length = requests.length ∧ texts asked = texts inner ∧
      Courses seen (fun pair : LimitOrder × Nat => signLimit service time pair.2 pair.1)
        orders.zipIdx inner signed ∧
      Mutation.ofLimitOrders (signed.map (·.posting)) = .ok request.body ∧
      request.placement = .limits orders ∧
      request.combinations = signed.map (·.combination) ∧ request.committed = false := by
  obtain ⟨orders, signed, made, signedEach, body, placed⟩ := parts_of_limits h
  exact ⟨orders, signed, asked, made.length, rfl, signedEach, body, placed⟩

/-! ## Market orders -/

/-- What a market order goes through: all nonces of pools that were seen at one moment are
combined, and a signer signs the fill orders and the text. -/
theorem parts_of_market {service : Service} {time : Int} {given : MarketRequest}
    {request : SignedRequest}
    (h : Course seen (market service time given) asked (.returned request)) :
    ∃ (order : MarketOrder) (signer : Signer) (posting : MarketPosting) (text : String)
      (v : MarketPosting) (signatures : List BlockchainSignature)
      (filled sealed : List (Exchange signing)), asked = filled ++ sealed ∧
      (∃ market, MarketOrder.ofRequest market given = .ok order) ∧
      (∃ s, seen s ∧ s.getSigner = .ok signer) ∧
      Course seen (Build.signatures signer order.market order.source order.destination
        request.combinations) filled (.returned signatures) ∧
      Course seen (signed signer v signatures) sealed (.returned (posting, text)) ∧
      request.body = Mutation.ofMarketOrder posting ∧ request.placement = .market order ∧
      request.committed = false ∧
      ∃ s sources destinations, seen s ∧ s.pool order.source.asset.ticker = .ok sources ∧
        s.pool order.destination.ticker = .ok destinations ∧
        Combination.expand sources destinations (Nonce.ofClock time 0) =
          .ok request.combinations := by
  obtain ⟨market, _, _, rfl, resolved, rest₁⟩ := course_bind_iff.1 h
  obtain ⟨-, rfl⟩ := course_read_iff.1 resolved
  obtain ⟨order, _, _, rfl, made, rest₂⟩ := course_bind_iff.1 rest₁
  obtain ⟨hmade, rfl⟩ := course_attempt made
  obtain ⟨⟨sources, destinations⟩, _, _, rfl, found, rest₃⟩ := course_bind_iff.1 rest₂
  obtain ⟨rfl, s, hs, hsources, hdestinations⟩ := course_pools found
  obtain ⟨combinations, _, _, rfl, chosen, rest₄⟩ := course_bind_iff.1 rest₃
  obtain ⟨hcombinations, rfl⟩ := course_attempt chosen
  obtain ⟨signer, _, _, rfl, attached, rest₅⟩ := course_bind_iff.1 rest₄
  obtain ⟨held, rfl⟩ := course_read_iff.1 attached
  obtain ⟨signatures, filled, _, rfl, hfilled, rest₆⟩ := course_bind_iff.1 rest₅
  obtain ⟨⟨posting, text⟩, sealed, _, rfl, hsealed, rest₇⟩ := course_bind_iff.1 rest₆
  obtain ⟨rfl, rfl⟩ := course_done_iff.1 rest₇
  refine ⟨order, signer, posting, text, _, signatures, filled, sealed, ?_, ⟨market, hmade⟩, held,
    hfilled, hsealed, rfl, rfl, rfl, s, sources, destinations, hs, hsources, hdestinations,
    hcombinations⟩
  simp only [List.nil_append, List.append_nil]

/-- **A market order** is signed once, for every combination of nonces of pools that were
seen at one moment. -/
theorem course_market {service : Service} {time : Int} {given : MarketRequest}
    {request : SignedRequest}
    (h : Course seen (market service time given) asked (.returned request)) :
    ∃ posting text order, texts asked = [(text, .ok posting.signature)] ∧
      (∃ unsigned, Canonical.ofPosting .standard (Payload.operation MarketPayload)
        { posting with signature := unsigned } [] = .ok text) ∧
      request.body = Mutation.ofMarketOrder posting ∧ request.placement = .market order ∧
      request.committed = false ∧
      ∃ s sources destinations, seen s ∧ s.pool order.source.asset.ticker = .ok sources ∧
        s.pool order.destination.ticker = .ok destinations ∧
        Combination.expand sources destinations (Nonce.ofClock time 0) =
          .ok request.combinations := by
  obtain ⟨order, signer, posting, text, v, signatures, filled, sealed, rfl, -, -, hfilled, hsealed,
    body, placement, committed, chosen⟩ := parts_of_market h
  obtain ⟨signedOnce, written⟩ := course_signed hsealed
  refine ⟨posting, text, order, ?_, ⟨_, written⟩, body, placement, committed, chosen⟩
  rw [texts_append, texts_signatures hfilled, signedOnce, List.nil_append]

/-! ## Builds only read -/

theorem readOnly_attempt (r : Except Failure α) : ReadOnly (attempt r) := by
  cases r <;> trivial

theorem readOnly_call (signer : Signer) (call : SignerCall) :
    ReadOnly (Build.call signer call) := ⟨rfl, fun answer => readOnly_attempt answer⟩

theorem readOnly_read (look : Session → Except Failure α) :
    ReadOnly (Plan.read look : Action α) := fun s => readOnly_attempt (look s)

theorem readOnly_signatures (signer : Signer) (market : Market) (source : Amount)
    (destination : Asset) (combinations : List Combination) :
    ReadOnly (Build.signatures signer market source destination combinations) := by
  refine (readOnly_collect (fun chain => ?_) _).bind fun _ => trivial
  refine (readOnly_call _ _).bind fun key => readOnly_collect (fun c => ?_) _
  exact (readOnly_attempt _).bind fun _ => (readOnly_attempt _).bind fun _ =>
    (readOnly_call _ _).bind fun _ => readOnly_attempt _

theorem readOnly_signed [Payload π] (signer : Signer) (v : Posting π)
    (signatures : List BlockchainSignature) : ReadOnly (signed signer v signatures) :=
  (readOnly_attempt _).bind fun _ =>
    ReadOnly.bind ⟨rfl, fun _ => readOnly_attempt _⟩ fun _ => trivial

theorem readOnly_signLimit (service : Service) (time : Int) (index : Nat) (order : LimitOrder) :
    ReadOnly (signLimit service time index order) :=
  (readOnly_attempt _).bind fun _ => (readOnly_read _).bind fun _ =>
    (readOnly_attempt _).bind fun _ => (readOnly_read _).bind fun _ =>
      (readOnly_signatures ..).bind fun _ => (readOnly_signed ..).bind fun _ => trivial

/-- **A build changes nothing** of the session. -/
theorem readOnly_limits (service : Service) (time : Int) (requests : List LimitRequest) :
    ReadOnly (limits service time requests) := by
  unfold limits
  split
  · trivial
  · refine (readOnly_collect (fun request => ?_) _).bind fun orders =>
      (readOnly_collect (fun pair => readOnly_signLimit ..) _).bind fun _ =>
        (readOnly_attempt _).bind fun _ => trivial
    exact (readOnly_read _).bind fun _ => readOnly_attempt _

theorem readOnly_market (service : Service) (time : Int) (request : MarketRequest) :
    ReadOnly (market service time request) :=
  (readOnly_read _).bind fun _ => (readOnly_attempt _).bind fun _ => (readOnly_read _).bind fun _ =>
    (readOnly_attempt _).bind fun _ => (readOnly_read _).bind fun _ =>
      (readOnly_signatures ..).bind fun _ => (readOnly_signed ..).bind fun _ => trivial

end Build

/-! ## A session to try builds on -/

namespace Sample

/-- A signer that gives one answer to all questions of a kind. -/
def signer : Signer where
  kind := .rehearsal
  answer
    | .publicKey chain => .ok (Rehearsal.standardKey chain)
    | .digest .. => .ok ⟨1, 1, 0⟩
    | .text _ => .ok ⟨"5d", "03"⟩
  turns _ := 0

/-- A session with one market and a few nonces. -/
def session : Session where
  catalog := .ofList [⟨⟨.neo, 8⟩, ⟨.gas, 8⟩, false⟩]
  signer := some signer
  pools := some ⟨[("neo", [1, 2]), ("gas", [7])]⟩
  requests := []

def service : Service := ⟨none, "_"⟩

def marketRequest : MarketRequest := ⟨"neo_gas", ⟨false, 1, 0⟩, none⟩

def limitRequest : LimitRequest :=
  ⟨"gas_neo", .buy, ⟨false, 3, 0⟩, ⟨false, 5, -1⟩, .standard, true, none⟩

/-- The answers of one signer, whoever is asked. -/
def answer (question : signing.Question) : signing.Answer question := signer.answer question.2

theorem limits_given : ((Build.limits service 1000 [limitRequest, limitRequest]).evaluate answer
    session).2.value?.isSome = true := by
  decide +kernel

theorem market_given : ((Build.market service 1000 marketRequest).evaluate answer
    session).2.value?.isSome = true := by
  decide +kernel

end Sample

end SignedOrders.Session
