import SignedOrders.Proofs.Canonical
import SignedOrders.Proofs.FillOrder.Injective
import SignedOrders.Proofs.Key
import SignedOrders.Proofs.Overreach
import SignedOrders.Proofs.Session.ChainSignatures
import SignedOrders.Proofs.Session.PoolInvariant
import SignedOrders.Proofs.Tasks.Ensures

/-!
# Why builds fail

A build that gives no request has failed at some step, and its failure says why and belongs to
the stage of that step.  Either an order could not be placed, before any signer was asked
(`Unplaced`), or it could not be signed (`Unsigned`): nonces or the signer were missing, a key
did not suit its chain, or the signer has refused the last question.

The rest of a build cannot fail: combinations are made of the nonces of sound pools, fill orders
of accepted amounts are encoded, answers in range are written, and every payload has a text unless
the time it states is beyond the limits of JSON texts.  So a failure that belongs to no stage is
due to a request that overreaches its market, or to a name that cannot be taken apart
(`build_outcome`).
-/

namespace SignedOrders

/-- The stage in which a signer is asked. -/
def SignerCall.stage : SignerCall → Stage
  | publicKey _ | digest .. => .blockchainSigning
  | text _ => .canonicalSigning

/-- An answer as signers give it: a refusal says that the signer is not available, and the
signature of a digest is in range. -/
def SignerCall.WellAnswered : (call : SignerCall) → Except Failure call.Answer → Prop
  | _, .error e => ∃ reason, e = .of (.signingUnavailable reason)
  | digest .., .ok signature => signature.InRange
  | _, .ok _ => True

namespace Session

open Tasks Build

variable {service : Service} {time : ℤ} {seen : Session → Prop} {asked : List (Exchange signing)}
  {e : Failure}

/-- The session has sound pools, and its markets have places for amounts. -/
structure Regular (s : Session) : Prop where
  pools : s.PoolsSound
  markets : ∀ entry ∈ s.catalog.entries, entry.2.Placed

/-- The question was answered as signers answer. -/
def WellAnswered (exchange : Exchange signing) : Prop :=
  exchange.question.2.WellAnswered exchange.answer

/-- Why an order could not be placed. -/
inductive Unplaced (service : Service) (seen : Session → Prop) : Failure → Prop
  /-- Neither the name nor its reversal was a market. -/
  | market (s : Session) (name : String) (hs : seen s) (absent : s.catalog.get? name = none)
      (reversed : s.catalog.get? (Catalog.reversedName service.separator name) = none) :
      Unplaced service seen ⟨.unknownMarket name, some .marketResolution⟩
  /-- An amount or a price could not be applied to its market. -/
  | amount (cause : Cause) (refuses : cause.RefusesAmount) :
      Unplaced service seen ⟨cause, some .marketResolution⟩

/-- The number has no more digits than texts may have. -/
def FewDigits (n : ℤ) : Prop := Decimal.width n.natAbs ≤ Json.Limits.standard.digits

/-- Why an order that is built at `time` could not be signed, by what was asked until then. -/
inductive Unsigned (time : ℤ) (seen : Session → Prop) (asked : List (Exchange signing)) :
    Failure → Prop
  /-- There were no nonces of an asset. -/
  | pool (s : Session) (asset : Asset) (hs : seen s) (empty : s.poolOf asset.ticker = []) :
      Unsigned time seen asked ⟨.noPool asset.ticker, some .nonceResolution⟩
  /-- There was no signer. -/
  | signer (s : Session) (hs : seen s) (absent : s.signer = none) :
      Unsigned time seen asked
        ⟨.signingUnavailable "No signer attached to this session", some .blockchainSigning⟩
  /-- A key that the signer has given did not suit its chain. -/
  | key (signer : Signer) (chain : Chain) (key : Key) (cause : Cause)
      (given : ⟨(signer, .publicKey chain), .ok key⟩ ∈ asked) (refuses : cause.RefusesKey) :
      Unsigned time seen asked ⟨cause, some .blockchainSigning⟩
  /-- The signer has refused the last question. -/
  | declined (before : List (Exchange signing)) (signer : Signer) (call : SignerCall)
      (reason : String)
      (last : asked = before ++ [⟨(signer, call), .error (.of (.signingUnavailable reason))⟩]) :
      Unsigned time seen asked ⟨.signingUnavailable reason, some call.stage⟩
  /-- The time has more digits than texts may have. -/
  | text (operation : String) (long : ¬FewDigits time) :
      Unsigned time seen asked ⟨.notCanonical operation, some .canonicalSigning⟩

theorem Unsigned.prepend (before asked : List (Exchange signing)) (e : Failure)
    (h : Unsigned time seen asked e) : Unsigned time seen (before ++ asked) e := by
  cases h with
  | pool s asset hs empty => exact .pool s asset hs empty
  | signer s hs absent => exact .signer s hs absent
  | key signer chain key cause given refuses =>
    exact .key signer chain key cause (List.mem_append_right before given) refuses
  | declined earlier signer call reason last =>
    exact .declined (before ++ earlier) signer call reason (by rw [last, List.append_assoc])
  | text operation long => exact .text operation long

/-! ## Pools and signers -/

theorem pool_error {s : Session} {asset : Asset} (hs : seen s)
    (h : s.pool asset.ticker = .error e) : Unsigned time seen asked e := by
  have empty : s.poolOf asset.ticker = [] := by
    by_contra full
    cases h.symm.trans (pool_eq_ok.2 ⟨rfl, full⟩)
  -- no pools at all and no pool of the asset are one failure
  obtain rfl : e = .of (.noPool asset.ticker) := by
    unfold Session.pool at h
    split at h
    · exact (Pools.get_eq_error.1 h).2
    · cases h
      rfl
  exact .pool s asset hs empty

/-- What follows a look at the pools can count on nonces in both. -/
theorem ensures_pools_bind (regular : ∀ s, seen s → s.Regular) {source destination : Asset}
    {f : List ℤ × List ℤ → Action β} {gives : List (Exchange signing) → β → Prop}
    {fails : List (Exchange signing) → Failure → Prop}
    (found : ∀ sources destinations, Combination.Drawable sources →
      Combination.Drawable destinations →
        Ensures seen WellAnswered (f (sources, destinations)) gives fails)
    (missing : ∀ e, Unsigned time seen [] e → fails [] e) :
    Ensures seen WellAnswered ((Build.pools source destination).bind f) gives fails := by
  refine ensures_read_bind (fun s pair hs look => ?_) fun s e hs failed => missing e ?_
  · obtain ⟨sources, hsources, look⟩ := bind_eq_ok.1 look
    obtain ⟨destinations, hdestinations, look⟩ := bind_eq_ok.1 look
    cases look
    have sound := (regular s hs).pools
    exact found _ _ (sound.drawable hsources) (sound.drawable hdestinations)
  · rcases bind_eq_error.1 failed with failed | ⟨sources, -, failed⟩
    · exact pool_error hs failed
    rcases bind_eq_error.1 failed with failed | ⟨destinations, -, failed⟩
    · exact pool_error hs failed
    · cases failed

/-- What follows a look for the signer can count on one. -/
theorem ensures_signer_bind {f : Signer → Action β} {gives : List (Exchange signing) → β → Prop}
    {fails : List (Exchange signing) → Failure → Prop}
    (found : ∀ signer, Ensures seen WellAnswered (f signer) gives fails)
    (missing : ∀ e, Unsigned time seen [] e → fails [] e) :
    Ensures seen WellAnswered (Build.signer.bind f) gives fails := by
  refine ensures_read_bind (fun _ signer _ _ => found signer) fun s e hs failed => missing e ?_
  obtain ⟨absent, rfl⟩ := orFail_eq_error.1 failed
  exact .signer s hs absent

/-! ## Signatures -/

variable {signer : Signer} {source : Amount} {destination : Asset} {c : Combination}

/-- A call is answered, or the signer has refused it. -/
theorem ensures_call (signer : Signer) (call : SignerCall)
    (early : call.stage = .blockchainSigning) :
    Ensures seen WellAnswered (Build.call signer call)
      (fun asked answer => asked = [⟨(signer, call), .ok answer⟩] ∧ call.WellAnswered (.ok answer))
      (Unsigned time seen) := by
  refine ensures_ask fun answer fair => ensures_ofExcept ?_ ?_
  · rintro a rfl
    exact ⟨rfl, fair⟩
  · rintro e rfl
    obtain ⟨reason, rfl⟩ : ∃ reason, e = .of (.signingUnavailable reason) := by
      cases call <;> exact fair
    rw [Failure.of]
    change Unsigned time seen [_] ⟨_, some .blockchainSigning⟩
    rw [← early]
    exact .declined [] signer call reason rfl

/-- Why the fill order of a key could not be signed. -/
def FillUnsigned (time : ℤ) (seen : Session → Prop) (asked : List (Exchange signing))
    (e : Failure) : Prop :=
  e.RefusesKey ∨ Unsigned time seen asked e

theorem FillUnsigned.prepend (before asked : List (Exchange signing)) (e : Failure)
    (h : FillUnsigned time seen asked e) : FillUnsigned time seen (before ++ asked) e :=
  h.imp id (Unsigned.prepend before asked e)

/-- A number of 32 bits has few digits. -/
theorem fewDigits_of_lt {n : ℤ} (low : 0 ≤ n) (high : n < 0x100000000) : FewDigits n := by
  have ten : Decimal.tenTo 10 = 10000000000 := by decide
  have width : Decimal.width n.natAbs ≤ 10 := (Decimal.width_le_iff (by decide)).2 (by omega)
  exact Nat.le_trans width (by decide)

/-- A nonce that has a place in a settlement structure has few digits. -/
theorem fewDigits_of_fits {nonce : Nonce} (h : nonce.Fits) : FewDigits nonce.encoded :=
  fewDigits_of_lt h.1 h.2

/-- The nonces that a signature states have few digits. -/
def ShortNonces (entry : BlockchainSignature) : Prop := ∀ n ∈ entry.integers, FewDigits n

/-- A fill order that can be made is signed, if the signer does not refuse. -/
theorem ensures_fillSignature
    (accepted : ∃ (side : Side) (given : Given), side.amount given = .ok source)
    (drawn : ∃ m n time index : ℤ, Combination.ofPooled m n (.ofClock time index) = .ok c)
    (chain : Chain) (key : Key) :
    Ensures seen WellAnswered (fillSignature signer chain key source destination c)
      (fun _ => ShortNonces) (FillUnsigned time seen) := by
  refine ensures_ofExcept_bind (fun order made => ?_)
    fun e failed => .inl (FillOrder.make_error failed)
  -- octets and text exist, so that only the key and the signer can refuse
  obtain ⟨octets, encoded, -⟩ := FillOrder.Made.exists_encode ⟨accepted, drawn, made⟩
  have hashed : order.digest = .ok (FillOrder.hash order.chain octets) :=
    map_eq_ok.2 ⟨octets, encoded, rfl⟩
  refine ensures_ok_bind hashed ?_
  have called : Ensures seen WellAnswered
      (Build.call signer (.digest order.chain (FillOrder.hash order.chain octets)))
      (fun _ (signature : ChildSignature) => signature.InRange) (FillUnsigned time seen) :=
    (ensures_call signer _ rfl).mono (fun _ _ answered => answered.2) fun _ _ => Or.inr
  refine called.bind fun before signature inRange => ?_
  obtain ⟨text, written⟩ := FillOrder.exists_signatureText order.chain inRange
  have attested : Signer.attest order key signature = .ok _ :=
    bind_eq_ok.2 ⟨text, written, rfl⟩
  refine ensures_ok attested ?_
  obtain ⟨-, source_eq, destination_eq⟩ := FillOrder.nonces_of_make made
  obtain ⟨m, n, _, _, drawn⟩ := drawn
  have fits := Combination.fits_ofPooled (Nonce.fits_ofClock _ _) drawn
  have source_fits : order.sourceNonce.Fits := source_eq ▸ fits.source.onChain ..
  have destination_fits : order.destinationNonce.Fits :=
    destination_eq ▸ fits.destination.onChain ..
  simp [ShortNonces, BlockchainSignature.integers, fewDigits_of_fits source_fits,
    fewDigits_of_fits destination_fits]

/-- What is signed on a chain is signed with a key that suits it. -/
theorem ensures_chainSignatures
    (accepted : ∃ (side : Side) (given : Given), side.amount given = .ok source)
    {combinations : List Combination}
    (drawn : ∀ c ∈ combinations, ∃ m n time index : ℤ,
      Combination.ofPooled m n (.ofClock time index) = .ok c) (chain : Chain) :
    Ensures seen WellAnswered (chainSignatures signer source destination combinations chain)
      (fun _ entries => ∀ entry ∈ entries, ShortNonces entry) (Unsigned time seen) := by
  refine (ensures_call signer (.publicKey chain) rfl).bind ?_
  rintro _ key ⟨rfl, -⟩
  have fills : Ensures seen WellAnswered
      (Plan.collect (fillSignature signer chain key source destination) combinations)
      (fun _ entries => entries.length = combinations.length ∧
        ∀ entry ∈ entries, ShortNonces entry) (FillUnsigned time seen) :=
    Ensures.collect_each FillUnsigned.prepend fun c hc =>
      ensures_fillSignature accepted (drawn c hc) chain key
  refine fills.mono (fun _ _ given => given.2) fun after e failed => ?_
  rcases failed with ⟨cause, refuses, rfl⟩ | unsigned
  · rw [refuses.of_eq]
    exact .key signer chain key cause List.mem_cons_self refuses
  · exact Unsigned.prepend _ _ _ unsigned

theorem ensures_signatures
    (accepted : ∃ (side : Side) (given : Given), side.amount given = .ok source)
    {combinations : List Combination}
    (drawn : ∀ c ∈ combinations, ∃ m n time index : ℤ,
      Combination.ofPooled m n (.ofClock time index) = .ok c) (market : Market) :
    Ensures seen WellAnswered (Build.signatures signer market source destination combinations)
      (fun _ entries => ∀ entry ∈ entries, ShortNonces entry) (Unsigned time seen) := by
  have each : Ensures seen WellAnswered
      (Plan.collect (chainSignatures signer source destination combinations) market.chains)
      (fun _ lists => lists.length = market.chains.length ∧
        ∀ entries ∈ lists, ∀ entry ∈ entries, ShortNonces entry) (Unsigned time seen) :=
    Ensures.collect_each Unsigned.prepend fun chain _ =>
      ensures_chainSignatures accepted drawn chain
  refine each.bind_late Unsigned.prepend fun lists given => ensures_done fun entry hentry => ?_
  obtain ⟨entries, hentries, hentry⟩ := List.mem_flatten.1 hentry
  exact given.2 entries hentries entry hentry

/-! ## Texts -/

/-- With these signatures of its fill orders the posting has a text, unless the time has too many
digits. -/
def Worded [Payload π] (time : ℤ) (v : Posting π) (signatures : List BlockchainSignature) : Prop :=
  ∀ e, Canonical.ofPosting .standard (Payload.operation π)
    { v with payload := Payload.withSignatures v.payload signatures } [] = .error e →
      ∃ operation, e = .of (.notCanonical operation) ∧ ¬FewDigits time

/-- **An order has a text unless the time has too many digits**, if all its other integers have
few of them. -/
theorem long_of_text_error {op : Placing} {v : AnyPosting} {e : Failure}
    (h : v.text .standard op = .error e) (short : ∀ n ∈ v.integers, n = time ∨ FewDigits n) :
    e = .of (.notCanonical op.name) ∧ ¬FewDigits time := by
  obtain ⟨rfl, n, hn, long⟩ := AnyPosting.text_eq_error (by decide) h
  rcases short n hn with rfl | few
  · exact ⟨rfl, Nat.not_le.2 long⟩
  · exact absurd few (Nat.not_le.2 long)

/-- The signatures of fill orders add nonces to the integers of an order. -/
theorem fewDigits_append {own : List ℤ} {signatures : List BlockchainSignature}
    (few : ∀ n ∈ own, n = time ∨ FewDigits n) (short : ∀ entry ∈ signatures, ShortNonces entry) :
    ∀ n ∈ own ++ signatures.flatMap (·.integers), n = time ∨ FewDigits n := by
  intro n hn
  rcases List.mem_append.1 hn with hn | hn
  · exact few n hn
  · obtain ⟨entry, hentry, hn⟩ := List.mem_flatMap.1 hn
    exact .inr (short entry hentry n hn)

theorem worded_of_limit {order : LimitOrder} {index : ℤ} {affiliate : Option String}
    {v : LimitPosting} (posted : order.posting time index affiliate = .ok v)
    {signatures : List BlockchainSignature} (short : ∀ entry ∈ signatures, ShortNonces entry) :
    Worded time v signatures := by
  intro e failed
  obtain ⟨cancelAt, -, posted⟩ := bind_eq_ok.1 posted
  obtain ⟨price, -, posted⟩ := bind_eq_ok.1 posted
  cases posted
  have retired : FewDigits LimitOrder.retiredNonce := fewDigits_of_lt (by decide) (by decide)
  have clock := fewDigits_of_fits (Nonce.fits_ofClock time index)
  have own : ∀ n ∈ [LimitOrder.retiredNonce, LimitOrder.retiredNonce,
      (Nonce.ofClock time index).encoded, time], n = time ∨ FewDigits n := by simp [retired, clock]
  have wordless : (AnyPosting.limit _).text .standard .limit = .error e := failed
  exact ⟨_, long_of_text_error wordless (fewDigits_append own short)⟩

theorem worded_of_market (order : MarketOrder) (affiliate : Option String)
    {signatures : List BlockchainSignature} (short : ∀ entry ∈ signatures, ShortNonces entry) :
    Worded time (order.posting time affiliate) signatures := by
  intro e failed
  have none : FewDigits 0 := fewDigits_of_lt (by decide) (by decide)
  have clock := fewDigits_of_fits (Nonce.fits_ofClock time 0)
  have own : ∀ n ∈ [0, 0, (Nonce.ofClock time 0).encoded, time], n = time ∨ FewDigits n := by
    simp [none, clock]
  have wordless : (AnyPosting.market _).text .standard .market = .error e := failed
  exact ⟨_, long_of_text_error wordless (fewDigits_append own short)⟩

/-- A posting that has a text is signed if the signer does not refuse. -/
theorem ensures_signed [Payload π] (signer : Signer) {v : Posting π}
    {signatures : List BlockchainSignature} (worded : Worded time v signatures) :
    Ensures seen WellAnswered (signed signer v signatures) (fun _ _ => True)
      (Unsigned time seen) := by
  refine ensures_ofExcept_bind (fun text _ => ?_) fun e failed => ?_
  case refine_2 =>
    obtain ⟨operation, rfl, long⟩ := worded e failed
    exact .text operation long
  have sealing : Ensures seen WellAnswered (textSignature signer text) (fun _ _ => True)
      (Unsigned time seen) := by
    refine ensures_ask fun answer fair =>
      ensures_ofExcept (fun _ _ => trivial) fun e failed => ?_
    obtain ⟨refusal, rfl, rfl⟩ := mapError_eq_error.1 failed
    obtain ⟨reason, rfl⟩ := fair
    exact .declined [] signer (.text text) reason rfl
  exact sealing.bind fun _ _ _ => ensures_done trivial

/-! ## Markets -/

theorem Regular.placed_of_get? {s : Session} {name : String} {market : Market} (h : s.Regular)
    (found : s.catalog.get? name = some market) : market.Placed := by
  obtain ⟨entry, hentry, rfl⟩ := Option.map_eq_some_iff.1 found
  exact h.markets entry (List.mem_of_find?_eq_some hentry)

theorem Regular.placed {s : Session} {separator name : String} {market : Market} (h : s.Regular)
    (found : s.catalog.resolve separator name = .ok market) : market.Placed := by
  unfold Catalog.resolve at found
  split at found
  · next here =>
    cases found
    exact h.placed_of_get? here
  split at found
  · cases found
  split at found
  · next there =>
    cases found
    exact (h.placed_of_get? there).invert
  · cases found

/-- What makes a build fail in no stage: a name that cannot be taken apart, or a request that
overreaches the market it names. -/
def Escapes (service : Service) (s : Session) (name : String) (overreaches : Market → Prop) :
    Prop :=
  service.separator = "" ∧ s.catalog.get? name = none ∨
    ∃ market, s.catalog.resolve service.separator name = .ok market ∧ overreaches market

theorem resolve_error {s : Session} {name : String} {overreaches : Market → Prop} (hs : seen s)
    (h : s.catalog.resolve service.separator name = .error e) :
    Unplaced service seen e ∨ e.stage = none ∧ Escapes service s name overreaches := by
  unfold Catalog.resolve at h
  split at h
  · cases h
  next absent =>
  split at h
  · next empty =>
    cases h
    exact .inr ⟨rfl, .inl ⟨empty, absent⟩⟩
  split at h
  · cases h
  · next reversed =>
    cases h
    exact .inl (.market s name hs absent reversed)

/-- The failure by a cause for which an amount is refused belongs to the choice of the market. -/
theorem unplaced_of_refusesAmount (h : e.RefusesAmount) : Unplaced service seen e := by
  obtain ⟨cause, refuses, rfl⟩ := h
  rw [refuses.of_eq]
  exact .amount cause refuses

/-! ## Limit orders -/

/-- The order was placed for the request on a market of the session. -/
def PlacedFor (service : Service) (seen : Session → Prop) (given : LimitRequest)
    (order : LimitOrder) : Prop :=
  ∃ s market, seen s ∧ s.catalog.resolve service.separator given.market = .ok market ∧
    LimitOrder.ofRequest market given = .ok order

/-- A request that was seen to overreach. -/
def Overreached (service : Service) (seen : Session → Prop) (given : LimitRequest) : Prop :=
  ∃ s, seen s ∧ Escapes service s given.market given.Overreaches

/-- An order is placed, or it is said why not; nothing is asked. -/
theorem ensures_limitOrder (regular : ∀ s, seen s → s.Regular) (given : LimitRequest) :
    Ensures seen WellAnswered (limitOrder service given)
      (fun asked order => asked = [] ∧ PlacedFor service seen given order)
      (fun asked e => asked = [] ∧
        (Unplaced service seen e ∨ e.stage = none ∧ Overreached service seen given)) := by
  refine ensures_read_bind (fun s market hs found => ?_) fun s e hs failed => ⟨rfl, ?_⟩
  · refine ensures_ofExcept (fun order placed => ⟨rfl, s, market, hs, found, placed⟩)
      fun e failed => ⟨rfl, ?_⟩
    rcases LimitOrder.ofRequest_error ((regular s hs).placed found) failed with
      refuses | ⟨arithmetic, overreach⟩
    · exact .inl (unplaced_of_refusesAmount refuses)
    · exact .inr ⟨arithmetic.stage, s, hs, .inr ⟨market, found, overreach⟩⟩
  · exact (resolve_error hs failed).imp id fun ⟨bare, escapes⟩ => ⟨bare, s, hs, escapes⟩

/-- Fill orders and text are signed, one after the other, and then nothing can fail. -/
theorem ensures_signing [Payload π]
    (accepted : ∃ (side : Side) (given : Given), side.amount given = .ok source)
    {combinations : List Combination}
    (drawn : ∀ c ∈ combinations, ∃ m n time index : ℤ,
      Combination.ofPooled m n (.ofClock time index) = .ok c) (market : Market) {v : Posting π}
    (worded : ∀ signatures, (∀ entry ∈ signatures, ShortNonces entry) → Worded time v signatures)
    {f : Posting π × String → β} {fails : List (Exchange signing) → Failure → Prop}
    (why : ∀ asked e, Unsigned time seen asked e → fails asked e) :
    Ensures seen WellAnswered
      ((Build.signatures signer market source destination combinations).bind fun signatures =>
        (signed signer v signatures).bind fun result => .done (f result))
      (fun _ _ => True) fails := by
  refine Ensures.mono ?_ (fun _ _ => id) why
  refine (ensures_signatures accepted drawn market).bind_late Unsigned.prepend
    fun signatures short => ?_
  exact (ensures_signed signer (worded signatures short)).bind_late Unsigned.prepend
    fun result _ => ensures_done trivial

/-- Why a placed order could not be signed, or a request that reaches too far not posted. -/
def Withheld (time : ℤ) (seen : Session → Prop) (overreached : Prop)
    (asked : List (Exchange signing)) (e : Failure) : Prop :=
  Unsigned time seen asked e ∨ e.stage = none ∧ overreached

theorem Withheld.prepend {overreached : Prop} (before asked : List (Exchange signing))
    (e : Failure) (h : Withheld time seen overreached asked e) :
    Withheld time seen overreached (before ++ asked) e :=
  h.imp (Unsigned.prepend before asked e) id

/-- A placed order is signed, or it is said why not. -/
theorem ensures_signLimit (regular : ∀ s, seen s → s.Regular) (time : ℤ) (index : ℕ)
    {given : LimitRequest} {order : LimitOrder} (placed : PlacedFor service seen given order) :
    Ensures seen WellAnswered (signLimit service time index order) (fun _ _ => True)
      (Withheld time seen (Overreached service seen given)) := by
  obtain ⟨s, market, hs, found, placed⟩ := placed
  refine ensures_ofExcept_bind (fun v posted => ?_) fun e failed => .inr ?_
  · refine ensures_pools_bind regular (fun sources destinations hsources hdestinations => ?_)
      fun e => .inl
    obtain ⟨c, chosen, m, n, drawn⟩ := Combination.exists_latest hsources hdestinations
      (Nonce.ofClock time index)
    refine ensures_ok_bind chosen (ensures_signer_bind (fun signer => ?_) fun e => .inl)
    exact ensures_signing (LimitOrder.exists_accepted placed)
      (List.forall_mem_singleton.2 ⟨m, n, time, index, drawn⟩) order.market
      (fun _ short => worded_of_limit posted short) fun _ _ => .inl
  · obtain ⟨bare, overreach⟩ := LimitOrder.posting_error placed failed
    exact ⟨bare, s, hs, .inr ⟨market, found, overreach⟩⟩

/-- Why a build has failed: an order could not be placed, before anything was asked, or it could
not be signed, or else a request reaches too far. -/
def Refusal (service : Service) (time : ℤ) (seen : Session → Prop) (overreached : Prop)
    (asked : List (Exchange signing)) (e : Failure) : Prop :=
  asked = [] ∧ Unplaced service seen e ∨ Withheld time seen overreached asked e

/-- All orders of a batch are placed, or it is said why not; nothing is asked. -/
theorem ensures_orders (regular : ∀ s, seen s → s.Regular) (requests : List LimitRequest) :
    Ensures seen WellAnswered (Plan.collect (limitOrder service) requests)
      (fun asked orders => asked = [] ∧ List.Forall₂ (PlacedFor service seen) requests orders)
      (fun asked e => asked = [] ∧ (Unplaced service seen e ∨
        e.stage = none ∧ ∃ given ∈ requests, Overreached service seen given)) := by
  refine Ensures.collect rfl ?_ ?_ fun given hgiven =>
    (ensures_limitOrder regular given).mono (fun _ _ => id) fun _ _ ⟨early, why⟩ =>
      ⟨early, why.imp id fun ⟨bare, overreach⟩ => ⟨bare, given, hgiven, overreach⟩⟩
  · rintro _ _ rfl rfl
    rfl
  · rintro _ _ e rfl failed
    exact failed

/-- All orders of a batch are signed, or it is said why not. -/
theorem ensures_signed_orders (regular : ∀ s, seen s → s.Regular) (time : ℤ)
    {requests : List LimitRequest} {orders : List LimitOrder}
    (placed : List.Forall₂ (PlacedFor service seen) requests orders) :
    Ensures seen WellAnswered
      (Plan.collect (fun (order, index) => signLimit service time index order) orders.zipIdx)
      (fun _ signed => signed.length = orders.length)
      (Withheld time seen (∃ given ∈ requests, Overreached service seen given)) := by
  rw [← List.length_zipIdx (i := 0)]
  refine Ensures.collect_any Withheld.prepend fun pair hpair => ?_
  obtain ⟨given, hgiven, placedOne⟩ :=
    exists_of_forall₂ placed (List.fst_mem_of_mem_zipIdx hpair)
  exact (ensures_signLimit regular time pair.2 placedOne).mono (fun _ _ => id)
    fun _ _ why => why.imp id fun ⟨bare, overreach⟩ => ⟨bare, given, hgiven, overreach⟩

/-- **A batch is signed, or it is said why not.** -/
theorem ensures_limits (regular : ∀ s, seen s → s.Regular) (time : ℤ)
    {requests : List LimitRequest} (some : requests ≠ []) :
    Ensures seen WellAnswered (limits service time requests) (fun _ _ => True)
      (Refusal service time seen (∃ given ∈ requests, Overreached service seen given)) := by
  have nonempty : ¬requests.isEmpty = true := by rwa [List.isEmpty_iff]
  unfold limits
  rw [if_neg nonempty]
  have placing : Ensures seen WellAnswered (Plan.collect (limitOrder service) requests)
      (fun asked orders => asked = [] ∧ List.Forall₂ (PlacedFor service seen) requests orders)
      (Refusal service time seen (∃ given ∈ requests, Overreached service seen given)) :=
    (ensures_orders regular requests).mono (fun _ _ => id) fun _ _ ⟨early, why⟩ =>
      why.imp (fun unplaced => ⟨early, unplaced⟩) .inr
  refine placing.bind ?_
  rintro _ orders ⟨rfl, placed⟩
  refine Ensures.mono ?_ (fun _ _ => id) fun _ _ => Or.inr
  refine (ensures_signed_orders regular time placed).bind_late Withheld.prepend
    fun signed count => ?_
  refine ensures_ofExcept_bind (fun body _ => ensures_done trivial) fun e failed => ?_
  -- the batch has as many orders as there were requests
  have none : signed = [] := by
    unfold Mutation.ofLimitOrders at failed
    split at failed
    · next empty => simpa using empty
    · cases failed
  rw [none, List.length_nil, eq_comm, List.length_eq_zero_iff] at count
  rw [count, List.forall₂_nil_right_iff] at placed
  exact absurd placed some

/-! ## Market orders -/

/-- **A market order is signed, or it is said why not.** -/
theorem ensures_market (regular : ∀ s, seen s → s.Regular) (time : ℤ) (given : MarketRequest) :
    Ensures seen WellAnswered (Build.market service time given) (fun _ _ => True)
      (Refusal service time seen
        (∃ s, seen s ∧ Escapes service s given.market given.Overreaches)) := by
  refine ensures_read_bind (fun s market hs found => ?_) fun s e hs failed => ?_
  · refine ensures_ofExcept_bind (fun order placed => ?_) fun e failed => ?_
    · refine ensures_pools_bind regular (fun sources destinations hsources hdestinations => ?_)
        fun e unsigned => .inr (.inl unsigned)
      obtain ⟨combinations, expanded, drawn⟩ := Combination.exists_expand hsources hdestinations
        (Nonce.ofClock time 0)
      refine ensures_ok_bind expanded
        (ensures_signer_bind (fun signer => ?_) fun e unsigned => .inr (.inl unsigned))
      obtain ⟨amount, carried, rfl⟩ := map_eq_ok.1 placed
      exact ensures_signing ⟨_, _, carried⟩ (fun c hc => by
          obtain ⟨m, n, made⟩ := drawn c hc
          exact ⟨m, n, time, 0, made⟩) _
        (fun _ short => worded_of_market _ _ short) fun _ _ unsigned => .inr (.inl unsigned)
    · rcases Side.quantity_error rfl ((regular s hs).placed found).base
        (map_eq_error.1 (map_eq_error.1 failed)) with ⟨refuses, -⟩ | ⟨arithmetic, overreach⟩
      · exact .inl ⟨rfl, unplaced_of_refusesAmount refuses⟩
      · exact .inr (.inr ⟨arithmetic.stage, s, hs, .inr ⟨market, found, overreach⟩⟩)
  · rcases resolve_error hs failed with unplaced | ⟨bare, escapes⟩
    · exact .inl ⟨rfl, unplaced⟩
    · exact .inr (.inr ⟨bare, s, hs, escapes⟩)

end Session

end SignedOrders
