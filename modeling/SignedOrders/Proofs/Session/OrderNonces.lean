import SignedOrders.Proofs.FillOrder.Injective
import SignedOrders.Proofs.Session.ChainSignatures

/-!
# The orders of a batch are told apart

The nonce of an order is the time of its batch plus its index, in 32 bits.  It is computed
once for the payload and once for the combination of nonces that the fill orders are made
of; both are the same number, which stands under `nonceOrder` in the payload on the wire and
in the last four octets of every fill order on Ethereum and on NEO (`Clocked`).

A batch of up to 2 ^ 32 orders does not come around to a nonce again, so that what is signed
for one of its orders is never what is signed for another (`Apart`), even if all are placed
for the same request (`orders_apart`).
-/

namespace SignedOrders

/-! ## Fill orders -/

namespace FillOrder

/-- The number in the last four octets. -/
def lastNumber (order : ByteOrder) (octets : Octets) : ℕ :=
  Octets.toNat order (octets.drop (octets.length - 4))

theorem lastNumber_append (order : ByteOrder) (before : Octets) {nonce : Nonce}
    (h : nonce.Fits) :
    (lastNumber order (before ++ Octets.ofNat order 4 nonce.encoded.toNat) : ℤ) =
      nonce.encoded := by
  have start : (before ++ Octets.ofNat order 4 nonce.encoded.toNat).length - 4 =
      before.length := by
    rw [List.length_append, Octets.length_ofNat, Nat.add_sub_cancel]
  rw [lastNumber, start, List.drop_left, Octets.toNat_ofNat order h.lt_capacity,
    Int.toNat_of_nonneg h.1]

/-- Octets that end in terms end in the nonce of the order. -/
theorem lastNumber_layout (order : ByteOrder) (opening : Octets) {terms : Terms}
    (h : terms.nonces.order.Fits) (n : ℕ) :
    (lastNumber order (opening ++ layout order terms n) : ℤ) = terms.nonces.order.encoded := by
  simp only [layout, ← List.append_assoc]
  exact lastNumber_append order _ h

namespace Made

variable {chain chain' : Chain} {source source' : Amount} {destination destination' : Asset}
  {key key' : Key} {nonces nonces' : Combination} {order order' : FillOrder}
  {octets octets' : Octets}

theorem lastNumber_ethereum (h : Made .ethereum source destination key nonces order)
    (encoded : order.encode = .ok octets) :
    (lastNumber .big octets : ℤ) = nonces.order.encoded := by
  obtain ⟨account, n, -, -, -, same⟩ := h.encode_ethereum
  cases encoded.symm.trans same
  rw [← List.cons_append]
  exact lastNumber_layout .big _ h.fits.order n

theorem lastNumber_neo (h : Made .neo source destination key nonces order)
    (encoded : order.encode = .ok octets) :
    (lastNumber .little octets : ℤ) = nonces.order.encoded := by
  obtain ⟨compressed, n, -, -, -, same⟩ := h.encode_neo
  cases encoded.symm.trans same
  rw [← List.cons_append]
  exact lastNumber_layout .little _ h.fits.order n

/-- **Fill orders of different nonces are different**, except on Bitcoin, where they do not
state it. -/
theorem octets_ne (h : Made chain source destination key nonces order)
    (h' : Made chain' source' destination' key' nonces' order')
    (encoded : order.encode = .ok octets) (encoded' : order'.encode = .ok octets')
    (states : chain ≠ .bitcoin) (apart : nonces.order.encoded ≠ nonces'.order.encoded) :
    octets ≠ octets' := by
  rintro rfl
  obtain rfl := h.chain_eq h' (encoded.trans encoded'.symm)
  cases chain with
  | ethereum =>
    exact apart ((h.lastNumber_ethereum encoded).symm.trans (h'.lastNumber_ethereum encoded'))
  | bitcoin => exact states rfl
  | neo => exact apart ((h.lastNumber_neo encoded).symm.trans (h'.lastNumber_neo encoded'))

end Made

end FillOrder

/-! ## Texts -/

@[simp] theorem nonceOrder_withSignatures (payload : LimitPayload)
    (signatures : List BlockchainSignature) :
    (Payload.withSignatures payload signatures).nonceOrder = payload.nonceOrder := rfl

/-- Two limit orders with one text have one nonce. -/
theorem nonceOrder_eq_of_text {v w : LimitPosting} {text : String}
    (hv : Canonical.ofPosting .standard (Payload.operation LimitPayload) v [] = .ok text)
    (hw : Canonical.ofPosting .standard (Payload.operation LimitPayload) w [] = .ok text) :
    v.payload.nonceOrder = w.payload.nonceOrder := by
  have textV : (AnyPosting.limit v).text .standard .limit = .ok text := hv
  have textW : (AnyPosting.limit w).text .standard .limit = .ok text := hw
  obtain ⟨-, covered⟩ := AnyPosting.covered_eq_of_text textV textW
  have payloads : Payload.withSignatures v.payload [] = Payload.withSignatures w.payload [] :=
    AnyPayload.limit.inj covered
  simpa using congrArg LimitPayload.nonceOrder payloads

theorem get?_nonceOrder (payload : LimitPayload) :
    (toJson .wire payload).get? "nonceOrder" = some (.int payload.nonceOrder) := by
  have member : ("nonce_order", some (Json.int payload.nonceOrder)) ∈ payload.fields .wire := by
    simp [LimitPayload.fields]
  have key : Naming.wire.key "nonce_order" = "nonceOrder" := by decide
  have found := get?_present (payload.distinct .wire) member
  rw [key] at found
  rw [← found]
  exact congrArg (Json.get? · "nonceOrder") (record_eq ..)

theorem nonceOrder_of_posting {order : LimitOrder} {time index : ℤ} {affiliate : Option String}
    {v : LimitPosting} (h : order.posting time index affiliate = .ok v) :
    v.payload.nonceOrder = (Nonce.ofClock time index).encoded := by
  obtain ⟨cancelAt, -, h⟩ := bind_eq_ok.1 h
  obtain ⟨price, -, h⟩ := bind_eq_ok.1 h
  cases h
  rfl

namespace Session

open Tasks Build

variable {service : Service} {time : ℤ} {seen : Session → Prop} {request : SignedRequest}
  {i j : ℕ} {asked asked' : List (Exchange signing)} {order order' : LimitOrder}
  {result result' : SignedLimit}

/-! ## One order of a batch -/

/-- What became of the order at one index of a batch: how it was signed, and what the request
has of it. -/
structure SubOrder (seen : Session → Prop) (service : Service) (time : ℤ)
    (request : SignedRequest) (i : ℕ) (asked : List (Exchange signing)) (order : LimitOrder)
    (result : SignedLimit) : Prop where
  course : Course seen (signLimit service time i order) asked (.returned result)
  requested : ∃ market given, LimitOrder.ofRequest market given = .ok order
  placed : ∃ orders, request.placement = .limits orders ∧ orders[i]? = some order
  combination : request.combinations[i]? = some result.combination
  bound : Json.Fields.get? request.body.bindings ("payload" ++ toString i) =
    some (toJson .wire result.posting.payload)

/-- **A batch is its orders**, each signed by itself under its index. -/
theorem subOrders_of_limits {requests : List LimitRequest}
    (h : Course seen (limits service time requests) asked (.returned request)) :
    ∃ segments : List (List (Exchange signing)), asked = segments.flatten ∧
      segments.length = requests.length ∧ ∀ (i : ℕ) segment, segments[i]? = some segment →
        ∃ order result, SubOrder seen service time request i segment order result := by
  obtain ⟨orders, signed, made, signedEach, body, placed, combinations, -⟩ := parts_of_limits h
  obtain ⟨segments, rfl, count, each⟩ := signedEach.exists_segments
  rw [List.length_zipIdx] at count
  refine ⟨segments, rfl, count.trans made.length, fun i segment hsegment => ?_⟩
  obtain ⟨within, rfl⟩ := List.getElem?_eq_some_iff.1 hsegment
  rw [count] at within
  have horder := List.getElem?_eq_getElem within
  obtain ⟨segment, result, found, hresult, course⟩ := each i (orders[i], i)
    (by rw [List.getElem?_zipIdx, horder, Option.map_some, Nat.zero_add])
  cases hsegment.symm.trans found
  obtain ⟨given, market, requested⟩ := exists_request made horder
  obtain ⟨hi, rfl⟩ := List.getElem?_eq_some_iff.1 hresult
  have bound := (Mutation.get?_bindings_ofLimitOrders body i (by rwa [List.length_map])).1
  rw [List.getElem_map] at bound
  refine ⟨orders[i], signed[i], course, ⟨market, given, requested⟩, ⟨orders, placed, horder⟩, ?_,
    bound⟩
  rw [combinations, List.getElem?_map, hresult, Option.map_some]

namespace SubOrder

/-- The nonce is computed for the payload as for the combination. -/
theorem nonceOrder (h : SubOrder seen service time request i asked order result) :
    result.posting.payload.nonceOrder = (time + i) % 2 ^ 32 ∧
      result.combination.order = .value ((time + i) % 2 ^ 32) := by
  obtain ⟨signer, v, signatures, filled, sealed, -, posted, -, -, hsealed, s, sources,
    destinations, -, -, -, chosen⟩ := parts_of_signLimit h.course
  obtain ⟨answer, -, sealedAs, -⟩ := parts_of_signed hsealed
  obtain ⟨m, n, -, -, made⟩ := Combination.latest_eq_ok chosen
  constructor
  · rw [show result.posting.payload = _ from congrArg Posting.payload sealedAs,
      nonceOrder_withSignatures]
    exact nonceOrder_of_posting posted
  · rw [made]
    rfl

/-- The nonces are drawn from pools and from the clock. -/
theorem drawn (h : SubOrder seen service time request i asked order result) :
    ∃ a b time index : ℤ, Combination.ofPooled a b (.ofClock time index) =
      .ok result.combination := by
  obtain ⟨signer, v, signatures, filled, sealed, -, -, -, -, -, s, sources, destinations, -, -, -,
    chosen⟩ := parts_of_signLimit h.course
  obtain ⟨m, n, hm, hn, source, destination⟩ := Combination.pooled_of_latest chosen
  obtain ⟨_, _, -, -, made⟩ := Combination.latest_eq_ok chosen
  refine ⟨m, n, time, i, Combination.ofPooled_eq_ok.2 ⟨hm, hn, ?_⟩⟩
  rw [← source, ← destination, made]

/-- What is signed is a text of the payload. -/
theorem exists_text (h : SubOrder seen service time request i asked order result) :
    ∃ text answer unsigned, texts asked = [(text, answer)] ∧
      Canonical.ofPosting .standard (Payload.operation LimitPayload)
        { result.posting with signature := unsigned } [] = .ok text := by
  obtain ⟨once, ⟨unsigned, written⟩, -⟩ := course_signLimit h.course
  exact ⟨_, _, unsigned, once, written⟩

end SubOrder

/-! ## What is signed for an order -/

/-- The signer was asked for the signature of `octets`, a fill order on `chain` of the order
at an index of a batch and of its combination of nonces. -/
structure SignedFill (request : SignedRequest) (i : ℕ) (asked : List (Exchange signing))
    (chain : Chain) (octets : Octets) : Prop where
  hashed : ∃ exchange ∈ asked, exchange.question.2 = .digest chain (FillOrder.hash chain octets)
  made : ∃ orders order c key fill, request.placement = .limits orders ∧ orders[i]? = some order ∧
    request.combinations[i]? = some c ∧
    FillOrder.make chain order.source order.destination key c = .ok fill ∧
    fill.encode = .ok octets

/-- Everything that states the nonce of the order at an index of a batch states the time of
the batch plus the index, in 32 bits. -/
structure Clocked (time : ℤ) (request : SignedRequest) (i : ℕ)
    (asked : List (Exchange signing)) : Prop where
  payload : ∃ wire, Json.Fields.get? request.body.bindings ("payload" ++ toString i) = some wire ∧
    wire.get? "nonceOrder" = some (.int ((time + i) % 2 ^ 32))
  combination : ∃ c, request.combinations[i]? = some c ∧ c.order = .value ((time + i) % 2 ^ 32)
  /-- The one text that was signed is that of the payload. -/
  text : ∃ wire text answer,
    Json.Fields.get? request.body.bindings ("payload" ++ toString i) = some wire ∧
    Canonical.ofPosted Placing.limit.name wire = some text ∧ texts asked = [(text, answer)]
  /-- Every digest that the signer was asked to sign is that of a fill order. -/
  fills : ∀ exchange ∈ digests asked, ∃ chain octets,
    exchange.question.2 = .digest chain (FillOrder.hash chain octets) ∧
      SignedFill request i asked chain octets
  ethereum : ∀ octets, SignedFill request i asked .ethereum octets →
    (FillOrder.lastNumber .big octets : ℤ) = (time + i) % 2 ^ 32
  neo : ∀ octets, SignedFill request i asked .neo octets →
    (FillOrder.lastNumber .little octets : ℤ) = (time + i) % 2 ^ 32

/-- Nothing that is signed for the orders at two indices of a batch is the same. -/
structure Apart (request : SignedRequest) (i j : ℕ) (asked asked' : List (Exchange signing)) :
    Prop where
  nonces : ∀ wire wire',
    Json.Fields.get? request.body.bindings ("payload" ++ toString i) = some wire →
    Json.Fields.get? request.body.bindings ("payload" ++ toString j) = some wire' →
    wire.get? "nonceOrder" ≠ wire'.get? "nonceOrder"
  texts : ∀ text ∈ texts asked, ∀ text' ∈ texts asked', text.1 ≠ text'.1
  fills : ∀ chain chain' octets octets', SignedFill request i asked chain octets →
    SignedFill request j asked' chain' octets' → chain ≠ .bitcoin → chain' ≠ .bitcoin →
    octets ≠ octets'

namespace SubOrder

/-- The fill orders of an order are made of what it spends and of its nonces. -/
theorem exists_made {chain : Chain} {octets : Octets}
    (h : SubOrder seen service time request i asked order result)
    (signed : SignedFill request i asked chain octets) :
    ∃ key fill, FillOrder.Made chain order.source order.destination key result.combination fill ∧
      fill.encode = .ok octets := by
  obtain ⟨orders, _, _, key, fill, placed, horder, hc, made, encoded⟩ := signed.made
  obtain ⟨orders', placed', horder'⟩ := h.placed
  cases placed.symm.trans placed'
  cases horder.symm.trans horder'
  cases hc.symm.trans h.combination
  obtain ⟨market, given, requested⟩ := h.requested
  exact ⟨key, fill, ⟨LimitOrder.exists_accepted requested, h.drawn, made⟩, encoded⟩

theorem exists_fill (h : SubOrder seen service time request i asked order result)
    {exchange : Exchange signing} (member : exchange ∈ digests asked) :
    ∃ chain octets, exchange.question.2 = .digest chain (FillOrder.hash chain octets) ∧
      SignedFill request i asked chain octets := by
  obtain ⟨market, given, requested⟩ := h.requested
  obtain ⟨orders, placed, horder⟩ := h.placed
  obtain ⟨signer, -, product⟩ := signedProduct_of_signLimit (trades_of_limit requested) h.course
  obtain ⟨k, hk, found⟩ := List.getElem_of_mem member
  have within : k < order.market.chains.length := by
    have count := product.asked
    rw [List.length_singleton, Nat.mul_one] at count
    rwa [← count]
  obtain ⟨chain, hchain⟩ : ∃ chain, order.market.chains[k]? = some chain :=
    ⟨_, List.getElem?_eq_getElem within⟩
  -- there is one combination, so that the exchange is that of a chain
  obtain ⟨entry, asks, -, same, attests⟩ := product.attests k 0 chain _ hchain rfl
  rw [List.length_singleton, Nat.mul_one, Nat.add_zero, List.getElem?_eq_getElem hk, found] at same
  cases same
  obtain ⟨key, fill, octets, signature, text, made, encoded, -, -, asks, -⟩ := attests.signed
  have question : exchange.question.2 = .digest chain (FillOrder.hash chain octets) := by rw [asks]
  exact ⟨chain, octets, question, ⟨exchange, (List.mem_filter.1 member).1, question⟩,
    orders, order, _, key, fill, placed, horder, h.combination, made, encoded⟩

theorem encoded_order (h : SubOrder seen service time request i asked order result) :
    result.combination.order.encoded = (time + i) % 2 ^ 32 := by
  rw [h.nonceOrder.2]
  rfl

/-- **The nonce of an order is one number**, wherever it stands. -/
theorem clocked (h : SubOrder seen service time request i asked order result) :
    Clocked time request i asked where
  payload := ⟨_, h.bound, by rw [get?_nonceOrder, h.nonceOrder.1]⟩
  combination := ⟨_, h.combination, h.nonceOrder.2⟩
  text := by
    obtain ⟨text, answer, unsigned, once, written⟩ := h.exists_text
    refine ⟨_, text, answer, h.bound, ?_, once⟩
    exact AnyPosting.ofPosted_of_text (v := .limit result.posting)
      (.limit { result.posting with signature := unsigned }) rfl written
  fills _ member := h.exists_fill member
  ethereum octets signed := by
    obtain ⟨key, fill, made, encoded⟩ := h.exists_made signed
    rw [made.lastNumber_ethereum encoded, h.encoded_order]
  neo octets signed := by
    obtain ⟨key, fill, made, encoded⟩ := h.exists_made signed
    rw [made.lastNumber_neo encoded, h.encoded_order]

/-- **Orders with different nonces have nothing signed in common.** -/
theorem apart (h : SubOrder seen service time request i asked order result)
    (h' : SubOrder seen service time request j asked' order' result')
    (differ : (time + i) % 2 ^ 32 ≠ (time + j) % 2 ^ 32) : Apart request i j asked asked' where
  nonces wire wire' bound bound' := by
    cases bound.symm.trans h.bound
    cases bound'.symm.trans h'.bound
    rw [get?_nonceOrder, get?_nonceOrder, h.nonceOrder.1, h'.nonceOrder.1]
    exact fun same => differ (Json.int.inj (Option.some.inj same))
  texts := by
    obtain ⟨text, answer, unsigned, once, written⟩ := h.exists_text
    obtain ⟨text', answer', unsigned', once', written'⟩ := h'.exists_text
    rw [once, once']
    rintro _ hmem _ hmem' same
    cases List.mem_singleton.1 hmem
    cases List.mem_singleton.1 hmem'
    cases same
    have one := nonceOrder_eq_of_text written written'
    rw [h.nonceOrder.1, h'.nonceOrder.1] at one
    exact differ one
  fills chain chain' octets octets' signed signed' states _ := by
    obtain ⟨key, fill, made, encoded⟩ := h.exists_made signed
    obtain ⟨key', fill', made', encoded'⟩ := h'.exists_made signed'
    refine made.octets_ne made' encoded encoded' states ?_
    rwa [h.encoded_order, h'.encoded_order]

end SubOrder

/-- Numbers that follow each other do not come around within 2 ^ 32 of them. -/
theorem clock_ne (time : ℤ) {i j : ℕ} (hi : i < 2 ^ 32) (hj : j < 2 ^ 32) (apart : i ≠ j) :
    (time + i) % 2 ^ 32 ≠ (time + j) % 2 ^ 32 := by
  omega

/-- **The orders of a batch are never interchangeable.**  What the signer is asked for a batch
falls into one segment for each order.  The nonce of each order is the time of the batch plus
its index in 32 bits, in its payload, in its combination and in all its fill orders on Ethereum
and NEO, and of any two orders the nonces, the texts that are signed and these fill orders are
different. -/
theorem orders_apart (service : Service) (time : ℤ) (seen : Session → Prop)
    (requests : List LimitRequest) (few : requests.length ≤ 2 ^ 32)
    (asked : List (Exchange signing)) (request : SignedRequest)
    (h : Course seen (limits service time requests) asked (.returned request)) :
    ∃ segments : List (List (Exchange signing)), asked = segments.flatten ∧
      segments.length = requests.length ∧
      (∀ (i : ℕ) segment, segments[i]? = some segment → Clocked time request i segment) ∧
      ∀ (i j : ℕ) segment segment', segments[i]? = some segment → segments[j]? = some segment' →
        i ≠ j → Apart request i j segment segment' := by
  obtain ⟨segments, rfl, count, each⟩ := subOrders_of_limits h
  have small {i : ℕ} {segment} (hi : segments[i]? = some segment) : i < 2 ^ 32 :=
    (List.getElem?_eq_some_iff.1 hi).1.trans_le (count.trans_le few)
  refine ⟨segments, rfl, count, fun i segment hi => ?_, fun i j segment segment' hi hj apart => ?_⟩
  · obtain ⟨order, result, one⟩ := each i segment hi
    exact one.clocked
  · obtain ⟨order, result, one⟩ := each i segment hi
    obtain ⟨order', result', other⟩ := each j segment' hj
    exact one.apart other (clock_ne time (small hi) (small hj) apart)

/-- Two orders for one request, in a batch built just before the clock comes around. -/
theorem orders_apart_sample :
    ∃ asked request, [Sample.limitRequest, Sample.limitRequest].length ≤ 2 ^ 32 ∧
      Course (· = Sample.session) (limits Sample.service 4294967295
        [Sample.limitRequest, Sample.limitRequest]) asked (.returned request) ∧
      ∃ segments : List (List (Exchange signing)), asked = segments.flatten ∧
        segments.length = 2 ∧
        (∀ (i : ℕ) segment, segments[i]? = some segment →
          Clocked 4294967295 request i segment) ∧
        ∀ (i j : ℕ) segment segment', segments[i]? = some segment →
          segments[j]? = some segment' → i ≠ j → Apart request i j segment segment' := by
  obtain ⟨asked, request, course⟩ := (readOnly_limits Sample.service 4294967295
    [Sample.limitRequest, Sample.limitRequest]).exists_course world.answer Sample.session
      (by decide +kernel)
  exact ⟨asked, request, by decide, course, orders_apart Sample.service 4294967295
    (· = Sample.session) [Sample.limitRequest, Sample.limitRequest] (by decide) asked request
    course⟩

end Session

end SignedOrders
