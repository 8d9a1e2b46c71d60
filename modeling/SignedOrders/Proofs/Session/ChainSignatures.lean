import SignedOrders.Proofs.FillOrder.Attested
import SignedOrders.Proofs.Nonce
import SignedOrders.Proofs.Order
import SignedOrders.Proofs.Session.Posted

/-!
# The signatures of an order, chain by chain

An order on a market of `m` chains with `k` combinations of nonces is posted with `m * k`
signatures: entry `i * k + j` is for chain `i` and combination `j` (`SignedProduct`).  What an
entry reports, what the signer was asked and what it has answered belong together, since the
reported nonces stand in the octets that were hashed.  A nonce is reported on the chain of its
asset alone, which is one of the market's and only once among them; everywhere else stands
the mark, which is no nonce of a pool (`signatures_product`).
-/

namespace SignedOrders

/-! ## Reported nonces -/

/-- What an entry on `chain` reports for a nonce of `asset` from a pool: the nonce, if the asset
settles there, and otherwise, and only then, the mark. -/
structure ReportedOn (chain : Chain) (asset : Asset) (nonce : Nonce) (reported : Option ℤ) :
    Prop where
  value : ∃ n, nonce = .value n ∧ 0 ≤ n ∧
    reported = some (if asset.chain = chain then n else 4294967295)
  marked : reported = some 4294967295 ↔ asset.chain ≠ chain

namespace Combination

/-- Both nonces are such as pools can hold. -/
def Pooled (c : Combination) : Prop :=
  ∃ m n, Nonce.pooled m = .ok m ∧ Nonce.pooled n = .ok n ∧ c.source = .value m ∧
    c.destination = .value n

theorem pooled_of_ofPooled {a b : ℤ} {order : Nonce} {c : Combination}
    (h : ofPooled a b order = .ok c) : c.Pooled := by
  obtain ⟨ha, hb, rfl⟩ := ofPooled_eq_ok.1 h
  exact ⟨a, b, ha, hb, rfl, rfl⟩

theorem pooled_of_expand {sources destinations : List ℤ} {order : Nonce}
    {combinations : List Combination} (h : expand sources destinations order = .ok combinations) :
    ∀ c ∈ combinations, c.Pooled := by
  intro c hc
  obtain ⟨pair, -, made⟩ := exists_of_mem_mapM h hc
  exact pooled_of_ofPooled made

theorem pooled_of_latest {sources destinations : List ℤ} {order : Nonce} {c : Combination}
    (h : latest sources destinations order = .ok c) : c.Pooled := by
  obtain ⟨m, -, h⟩ := bind_eq_ok.1 h
  obtain ⟨m', hm, h⟩ := bind_eq_ok.1 h
  obtain ⟨n, -, h⟩ := bind_eq_ok.1 h
  obtain ⟨n', hn, h⟩ := bind_eq_ok.1 h
  obtain ⟨rfl, -⟩ := Nonce.pooled_eq_ok_iff.1 hm
  obtain ⟨rfl, -⟩ := Nonce.pooled_eq_ok_iff.1 hn
  cases h
  exact ⟨m, n, hm, hn, rfl, rfl⟩

end Combination

theorem reportedOn_of_pooled {n : ℤ} (h : Nonce.pooled n = .ok n) (chain : Chain) (asset : Asset) :
    ReportedOn chain asset (.value n) (some ((Nonce.value n).onChain chain asset).encoded) := by
  obtain ⟨-, low, high⟩ := Nonce.pooled_eq_ok_iff.1 h
  -- no nonce of a pool is the mark
  have below : n ≠ 4294967295 := by
    have largest : (Nonce.largestPooled : ℤ) = 4294967294 := rfl
    omega
  by_cases here : asset.chain = chain
  · rw [Nonce.onChain, if_pos here]
    exact ⟨⟨n, rfl, low, by rw [if_pos here]; rfl⟩,
      fun mark => absurd (Option.some.inj mark) below, fun elsewhere => absurd here elsewhere⟩
  · rw [Nonce.onChain, if_neg here]
    exact ⟨⟨n, rfl, low, by rw [if_neg here]; rfl⟩, fun _ => here, fun _ => rfl⟩

namespace Session

open Tasks

/-! ## One entry -/

/-- The questions for signatures of digests, with their answers. -/
def digests (asked : List (Exchange signing)) : List (Exchange signing) :=
  asked.filter fun exchange =>
    match exchange.question.2 with
    | .digest .. => true
    | _ => false

@[simp] theorem digests_nil : digests [] = [] := rfl

@[simp] theorem digests_append (before after : List (Exchange signing)) :
    digests (before ++ after) = digests before ++ digests after :=
  List.filter_append ..

/-- An entry for one chain and one combination of nonces of an order that spends `source` for
`destination`, with what the signer was asked for it and has answered. -/
structure Attests (signer : Signer) (source : Amount) (destination : Asset) (chain : Chain)
    (c : Combination) (entry : BlockchainSignature) (exchange : Exchange signing) : Prop where
  blockchain : entry.blockchain = chain.code
  nonceFrom : ReportedOn chain source.asset c.source entry.nonceFrom
  nonceTo : ReportedOn chain destination c.destination entry.nonceTo
  /-- The signer was asked for the hash of the octets of a fill order that state the reported
  nonces, and its answer is what the text of the signature says. -/
  signed : ∃ key order octets signature text,
    FillOrder.make chain source destination key c = .ok order ∧ order.encode = .ok octets ∧
    entry.nonceFrom = some ((FillOrder.writtenNonces chain octets).1 : ℤ) ∧
    entry.nonceTo = some ((FillOrder.writtenNonces chain octets).2 : ℤ) ∧
    exchange = ⟨(signer, .digest chain (FillOrder.hash chain octets)), .ok signature⟩ ∧
    Octets.ofHex? entry.signature = some text ∧ FillOrder.StatesSignature chain signature text

variable {seen : Session → Prop} {asked : List (Exchange signing)} {signer : Signer}
  {source : Amount} {destination : Asset}

/-- **The signature of a fill order** is an entry of its chain and combination. -/
theorem attests_of_fillSignature {chain : Chain} {key : Key} {c : Combination}
    {entry : BlockchainSignature} (pooled : c.Pooled)
    (h : Course seen (Build.fillSignature signer chain key source destination c) asked
      (.returned entry)) :
    ∃ exchange, asked = [exchange] ∧ digests asked = [exchange] ∧
      Attests signer source destination chain c entry exchange := by
  obtain ⟨order, octets, signature, made, encoded, rfl, attested⟩ := Build.course_fillSignature h
  obtain ⟨hchain, hsource, hdestination⟩ := FillOrder.nonces_of_make made
  obtain ⟨writtenFrom, writtenTo⟩ := FillOrder.writtenNonces_of_encode made encoded
  obtain ⟨text, htext, attested⟩ := bind_eq_ok.1 attested
  cases attested
  obtain ⟨read, hread, states⟩ := FillOrder.statesSignature_of_signatureText htext
  obtain ⟨m, n, hm, hn, cm, cn⟩ := pooled
  refine ⟨_, rfl, rfl, ?_⟩
  rw [hchain] at states ⊢
  constructor
  case blockchain => rfl
  case nonceFrom =>
    rw [hsource, cm]
    exact reportedOn_of_pooled hm chain source.asset
  case nonceTo =>
    rw [hdestination, cn]
    exact reportedOn_of_pooled hn chain destination
  case signed =>
    exact ⟨key, order, octets, signature, read, made, encoded, congrArg some writtenFrom.symm,
      congrArg some writtenTo.symm, rfl, hread, states⟩

/-! ## All entries of an order -/

/-- The signatures of an order on a market's chains and what the signer was asked for them:
the product of chains and combinations, the chains outermost. -/
structure SignedProduct (signer : Signer) (market : Market) (source : Amount)
    (destination : Asset) (combinations : List Combination) (entries : List BlockchainSignature)
    (exchanges : List (Exchange signing)) : Prop where
  count : entries.length = market.chains.length * combinations.length
  asked : exchanges.length = market.chains.length * combinations.length
  attests : ∀ (i j : ℕ) chain c, market.chains[i]? = some chain → combinations[j]? = some c →
    ∃ entry exchange, entries[i * combinations.length + j]? = some entry ∧
      exchanges[i * combinations.length + j]? = some exchange ∧
      Attests signer source destination chain c entry exchange
  /-- The nonces of both assets are reported on one chain of the market each. -/
  sourceOnce : ∃! i : ℕ, market.chains[i]? = some source.asset.chain
  destinationOnce : ∃! i : ℕ, market.chains[i]? = some destination.chain

/-- What is spent and received are the two assets of the market, in either direction. -/
def Trades (market : Market) (source destination : Asset) : Prop :=
  source = market.base.asset ∧ destination = market.quote.asset ∨
    source = market.quote.asset ∧ destination = market.base.asset

theorem nodup_chains (market : Market) : market.chains.Nodup := by
  unfold Market.chains
  split
  · exact List.nodup_singleton _
  · next apart => simpa using Ne.symm apart

/-- A chain of one of the assets is among the chains of the market, once. -/
theorem existsUnique_chain {market : Market} {chain : Chain} (h : chain ∈ market.chains) :
    ∃! i : ℕ, market.chains[i]? = some chain := by
  obtain ⟨i, hi, found⟩ := List.getElem_of_mem h
  refine ⟨i, List.getElem?_eq_some_iff.2 ⟨hi, found⟩, fun j other => ?_⟩
  obtain ⟨hj, foundToo⟩ := List.getElem?_eq_some_iff.1 other
  exact (nodup_chains market).getElem_inj_iff.1 (foundToo.trans found.symm)

theorem digests_fills {chain : Chain} {key : Key} {combinations : List Combination}
    {entries : List BlockchainSignature} (pooled : ∀ c ∈ combinations, c.Pooled)
    (h : Courses seen (Build.fillSignature signer chain key source destination) combinations asked
      entries) : digests asked = asked := by
  induction h with
  | nil => rfl
  | cons first _ ih =>
    obtain ⟨exchange, rfl, digest, -⟩ :=
      attests_of_fillSignature (pooled _ List.mem_cons_self) first
    rw [digests_append, digest, ih fun c hc => pooled c (List.mem_cons_of_mem _ hc)]

/-- The entries of one chain, combination by combination. -/
theorem attests_of_chainSignatures {chain : Chain} {combinations : List Combination}
    {entries : List BlockchainSignature} (pooled : ∀ c ∈ combinations, c.Pooled)
    (h : Course seen (Build.chainSignatures signer source destination combinations chain) asked
      (.returned entries)) :
    (digests asked).length = combinations.length ∧ entries.length = combinations.length ∧
      ∀ (j : ℕ) c, combinations[j]? = some c → ∃ entry exchange, entries[j]? = some entry ∧
        (digests asked)[j]? = some exchange ∧
        Attests signer source destination chain c entry exchange := by
  obtain ⟨key, fills, rfl, each⟩ := Build.course_chainSignatures h
  -- asking for the key is no question for a digest
  have kept : digests (⟨(signer, .publicKey chain), .ok key⟩ :: fills) = fills :=
    digests_fills pooled each
  have one (c asked entry) (course : Course seen
      (Build.fillSignature signer chain key source destination c) asked (.returned entry)) :
      asked.length = 1 := by
    obtain ⟨order, octets, signature, -, -, rfl, -⟩ := Build.course_fillSignature course
    rfl
  obtain ⟨count, exchanges⟩ := each.exists_exchange one
  rw [kept]
  refine ⟨count, each.length, fun j c hc => ?_⟩
  obtain ⟨exchange, entry, asks, gives, course⟩ := exchanges j c hc
  obtain ⟨same, ⟨⟩, -, attests⟩ :=
    attests_of_fillSignature (pooled c (List.mem_of_getElem? hc)) course
  exact ⟨entry, exchange, gives, asks, attests⟩

/-- **The signatures of an order are the product** of the market's chains and the combinations. -/
theorem signedProduct_of_signatures {market : Market} {combinations : List Combination}
    {entries : List BlockchainSignature} (pooled : ∀ c ∈ combinations, c.Pooled)
    (trades : Trades market source.asset destination)
    (h : Course seen (Build.signatures signer market source destination combinations) asked
      (.returned entries)) :
    SignedProduct signer market source destination combinations entries (digests asked) := by
  obtain ⟨lists, rfl, each⟩ := Build.course_signatures h
  obtain ⟨asks, gives, blocks⟩ := each.blocks (fun chain asked entries course =>
    have counted := attests_of_chainSignatures pooled course
    ⟨counted.1, counted.2.1⟩)
  constructor
  case count => exact gives
  case asked => exact asks
  case attests =>
    intro i j chain c hchain hc
    obtain ⟨inner, list, course, same⟩ := blocks i chain hchain
    obtain ⟨-, -, attests⟩ := attests_of_chainSignatures pooled course
    obtain ⟨entry, exchange, hentry, hexchange, attested⟩ := attests j c hc
    obtain ⟨sameAsked, sameEntry⟩ := same j (List.getElem?_eq_some_iff.1 hc).1
    exact ⟨entry, exchange, sameEntry.trans hentry, sameAsked.trans hexchange, attested⟩
  case sourceOnce =>
    refine existsUnique_chain (Market.mem_chains.2 ?_)
    rcases trades with ⟨spent, -⟩ | ⟨spent, -⟩ <;> simp [spent]
  case destinationOnce =>
    refine existsUnique_chain (Market.mem_chains.2 ?_)
    rcases trades with ⟨-, received⟩ | ⟨-, received⟩ <;> simp [received]

/-! ## Requests -/

theorem trades_of_limit {market : Market} {given : LimitRequest} {order : LimitOrder}
    (h : LimitOrder.ofRequest market given = .ok order) :
    Trades order.market order.source.asset order.destination := by
  obtain ⟨quantity, source, destination, -, -, pays, rfl⟩ := LimitOrder.ofRequest_eq_ok_iff.1 h
  cases pays with
  | sell => exact .inl ⟨rfl, rfl⟩
  | buy _ _ _ _ carried =>
    obtain ⟨value, -, rfl⟩ := map_eq_ok.1 carried
    exact .inr ⟨rfl, rfl⟩

theorem trades_of_market {market : Market} {given : MarketRequest} {order : MarketOrder}
    (h : MarketOrder.ofRequest market given = .ok order) :
    Trades order.market order.source.asset order.destination := by
  obtain ⟨amount, carried, rfl⟩ := map_eq_ok.1 h
  obtain ⟨value, -, rfl⟩ := map_eq_ok.1 carried
  exact .inl ⟨rfl, rfl⟩

/-- Signing the text of a posting attaches the signatures and asks for no digest. -/
theorem attached_of_signed [Payload π] {v : Posting π} {signatures : List BlockchainSignature}
    {posting : Posting π} {text : String}
    (h : Course seen (Build.signed signer v signatures) asked (.returned (posting, text))) :
    digests asked = [] ∧ posting.payload = Payload.withSignatures v.payload signatures := by
  obtain ⟨answer, rfl, posted, -⟩ := Build.parts_of_signed h
  exact ⟨rfl, congrArg Posting.payload posted⟩

/-- The signer has been the session's when the build looked. -/
def HeldBy (seen : Session → Prop) (signer : Signer) : Prop :=
  ∃ s, seen s ∧ s.getSigner = .ok signer

/-- Each order of a batch was made of a request. -/
theorem exists_request {service : Service} {requests : List LimitRequest}
    {orders : List LimitOrder} {t : ℕ} {order : LimitOrder}
    (h : Courses seen (Build.limitOrder service) requests asked orders)
    (horder : orders[t]? = some order) :
    ∃ given market, LimitOrder.ofRequest market given = .ok order := by
  obtain ⟨segments, -, -, each⟩ := h.exists_segments
  obtain ⟨bound, rfl⟩ := List.getElem?_eq_some_iff.1 horder
  have within : t < requests.length := h.length ▸ bound
  obtain ⟨segment, made, -, found, course⟩ := each t _ (List.getElem?_eq_getElem within)
  rw [List.getElem?_eq_getElem bound] at found
  cases found
  obtain ⟨-, market, hmade⟩ := Build.parts_of_limitOrder course
  exact ⟨_, market, hmade⟩

/-- A limit order is posted with the product for the one combination it has. -/
theorem signedProduct_of_signLimit {service : Service} {time : ℤ} {index : ℕ} {order : LimitOrder}
    {result : Build.SignedLimit}
    (trades : Trades order.market order.source.asset order.destination)
    (h : Course seen (Build.signLimit service time index order) asked (.returned result)) :
    ∃ signer, HeldBy seen signer ∧
      SignedProduct signer order.market order.source order.destination [result.combination]
        result.posting.payload.blockchainSignatures (digests asked) := by
  obtain ⟨signer, v, signatures, filled, sealed, rfl, -, held, hfilled, hsealed, s, sources,
    destinations, -, -, -, chosen⟩ := Build.parts_of_signLimit h
  obtain ⟨none, attached⟩ := attached_of_signed hsealed
  have pooled : ∀ c ∈ [result.combination], c.Pooled :=
    List.forall_mem_singleton.2 (Combination.pooled_of_latest chosen)
  have product := signedProduct_of_signatures pooled trades hfilled
  refine ⟨signer, held, ?_⟩
  rw [attached, digests_append, none, List.append_nil]
  exact product

/-- **Every order is posted with the product of its market's chains and its combinations.**
For each order of a batch, and for a market order, the payload that is bound on the wire has
the entries of all chains and combinations in order, and each entry belongs to what the signer
was asked at the same place. -/
theorem signatures_product (service : Service) (time : ℤ) (seen : Session → Prop)
    (asked : List (Exchange signing)) (request : SignedRequest) :
    (∀ requests, Course seen (Build.limits service time requests) asked (.returned request) →
      ∃ (orders : List LimitOrder) (segments : List (List (Exchange signing))),
        request.placement = .limits orders ∧
        orders.length = requests.length ∧ request.combinations.length = requests.length ∧
        segments.length = requests.length ∧ digests asked = segments.flatten ∧
        ∀ (t : ℕ) order c exchanges, orders[t]? = some order →
          request.combinations[t]? = some c → segments[t]? = some exchanges →
          ∃ (signer : Signer) (payload : LimitPayload), HeldBy seen signer ∧
            Json.Fields.get? request.body.bindings ("payload" ++ toString t) =
              some (toJson .wire payload) ∧
            SignedProduct signer order.market order.source order.destination [c]
              payload.blockchainSignatures exchanges) ∧
      ∀ given, Course seen (Build.market service time given) asked (.returned request) →
        ∃ (order : MarketOrder) (signer : Signer) (payload : MarketPayload),
          request.placement = .market order ∧ HeldBy seen signer ∧
          Json.Fields.get? request.body.bindings "payload" = some (toJson .wire payload) ∧
          SignedProduct signer order.market order.source order.destination request.combinations
            payload.blockchainSignatures (digests asked) := by
  constructor
  · intro requests h
    obtain ⟨orders, signed, made, signedEach, body, placed, combinations, -⟩ :=
      Build.parts_of_limits h
    obtain ⟨segments, rfl, count, each⟩ := signedEach.exists_segments
    have lengths := signedEach.length
    rw [List.length_zipIdx, made.length] at count lengths
    refine ⟨orders, segments.map digests, placed, made.length, ?_, ?_, ?_, ?_⟩
    · rw [combinations, List.length_map, lengths]
    · rw [List.length_map, count]
    · exact List.filter_flatten
    · intro t order c exchanges horder hc hsegment
      obtain ⟨segment, result, found, signedOne, course⟩ :=
        each t (order, t) (by rw [List.getElem?_zipIdx, horder, Option.map_some, Nat.zero_add])
      obtain ⟨hsigned, rfl⟩ := List.getElem?_eq_some_iff.1 signedOne
      rw [combinations, List.getElem?_map, signedOne] at hc
      rw [List.getElem?_map, found] at hsegment
      cases hc
      cases hsegment
      obtain ⟨given, market, hmade⟩ := exists_request made horder
      obtain ⟨signer, held, product⟩ := signedProduct_of_signLimit (trades_of_limit hmade) course
      have bound := (Mutation.get?_bindings_ofLimitOrders body t (by rwa [List.length_map])).1
      rw [List.getElem_map] at bound
      exact ⟨signer, _, held, bound, product⟩
  · intro given h
    obtain ⟨order, signer, posting, text, v, signatures, filled, sealed, rfl, ⟨market, made⟩, held,
      hfilled, hsealed, body, placed, -, s, sources, destinations, -, -, -, chosen⟩ :=
      Build.parts_of_market h
    obtain ⟨none, attached⟩ := attached_of_signed hsealed
    have product := signedProduct_of_signatures (Combination.pooled_of_expand chosen)
      (trades_of_market made) hfilled
    refine ⟨order, signer, posting.payload, placed, held, by rw [body]; rfl, ?_⟩
    rw [attached, digests_append, none, List.append_nil]
    exact product

/-- A session with a market of assets on two chains. -/
def Sample.crossSession : Session where
  catalog := .ofList [⟨⟨.btc, 8⟩, ⟨.neo, 8⟩, false⟩]
  signer := some Sample.signer
  pools := some ⟨[("btc", [4]), ("neo", [1, 2])]⟩
  requests := []

/-- A market order across two chains, and a limit order that buys on the market seen from its
other side, are posted with their products. -/
theorem signatures_product_sample :
    (∃ asked request, Course (· = Sample.crossSession)
      (Build.market Sample.service 1000 ⟨"btc_neo", ⟨false, 1, 0⟩, none⟩) asked
        (.returned request) ∧
      ∃ (order : MarketOrder) (signer : Signer) (payload : MarketPayload),
        request.placement = .market order ∧
        SignedProduct signer order.market order.source order.destination request.combinations
          payload.blockchainSignatures (digests asked)) ∧
      ∃ asked request, Course (· = Sample.crossSession)
        (Build.limits Sample.service 1000
          [⟨"neo_btc", .buy, ⟨false, 3, 0⟩, ⟨false, 5, -1⟩, .standard, true, none⟩]) asked
          (.returned request) ∧
        ∃ (order : LimitOrder) (c : Combination) (signer : Signer) (payload : LimitPayload),
          request.placement = .limits [order] ∧ request.combinations = [c] ∧
          SignedProduct signer order.market order.source order.destination [c]
            payload.blockchainSignatures (digests asked) := by
  constructor
  · obtain ⟨asked, request, course⟩ := (Build.readOnly_market Sample.service 1000
      ⟨"btc_neo", ⟨false, 1, 0⟩, none⟩).exists_course world.answer Sample.crossSession
        (by decide +kernel)
    obtain ⟨order, signer, payload, placed, -, -, product⟩ :=
      (signatures_product Sample.service 1000 (· = Sample.crossSession) asked request).2 _ course
    exact ⟨asked, request, course, order, signer, payload, placed, product⟩
  · obtain ⟨asked, request, course⟩ := (Build.readOnly_limits Sample.service 1000
      [⟨"neo_btc", .buy, ⟨false, 3, 0⟩, ⟨false, 5, -1⟩, .standard, true, none⟩]).exists_course
        world.answer Sample.crossSession (by decide +kernel)
    obtain ⟨orders, segments, placed, count, combined, segmented, whole, each⟩ :=
      (signatures_product Sample.service 1000 (· = Sample.crossSession) asked request).1 _ course
    -- one request gives one order, one combination and one segment, which is all that was asked
    obtain ⟨order, rfl⟩ := List.length_eq_one_iff.1 count
    obtain ⟨c, combination⟩ := List.length_eq_one_iff.1 combined
    obtain ⟨exchanges, rfl⟩ := List.length_eq_one_iff.1 segmented
    rw [List.flatten_singleton] at whole
    obtain ⟨signer, payload, -, -, product⟩ :=
      each 0 order c exchanges rfl (by rw [combination]; rfl) rfl
    rw [← whole] at product
    exact ⟨asked, request, course, order, c, signer, payload, placed, combination, product⟩

end Session

end SignedOrders
