import SignedOrders.Proofs.FillOrder
import SignedOrders.Proofs.Nonce

/-!
# Settlement structures are unambiguous

A signature is made for the octets of a fill order, so two orders with the same octets
would settle by one signature.  The structures of different chains differ in length; those
of one chain are concatenations of fields of fixed width, each of which has room for its
number (`layout_inj`), and the number that stands for an asset of another chain is no nonce
of a pool (`Nonce.Plain.encoded_inj`).  Hence the octets determine everything that an order
states on its chain, and two combinations of nonces give the same octets exactly when they
agree on what settles there (`Made.encode_eq_iff`).
-/

namespace SignedOrders

theorem Octets.ofNat_append_inj (order : ByteOrder) {width m n : ℕ} (hm : m < capacity width)
    (hn : n < capacity width) {rest rest' : Octets} :
    ofNat order width m ++ rest = ofNat order width n ++ rest' ↔ m = n ∧ rest = rest' := by
  constructor
  · intro h
    obtain ⟨first, others⟩ := List.append_inj h (by rw [length_ofNat, length_ofNat])
    exact ⟨ofNat_inj order hm hn first, others⟩
  · rintro ⟨rfl, rfl⟩
    rfl

/-! ## Nonces -/

namespace Nonce

/-- The nonce is the mark for other chains or a number that a pool can hold. -/
def Plain : Nonce → Prop
  | value n => 0 ≤ n ∧ n ≤ largestPooled
  | crosschain => True

/-- **The number of the mark is no nonce of a pool**: numbers tell such nonces apart. -/
theorem Plain.encoded_inj {m n : Nonce} (hm : m.Plain) (hn : n.Plain) :
    m.encoded.toNat = n.encoded.toNat ↔ m = n := by
  -- the mark is encoded as a number beyond all that a pool can hold
  have pooled : (largestPooled : ℤ) < largest := by decide
  cases m <;> cases n <;> simp only [Plain] at hm hn <;> simp [encoded] <;> omega

theorem Plain.onChain {nonce : Nonce} (h : nonce.Plain) (chain : Chain) (asset : Asset) :
    (nonce.onChain chain asset).Plain := by
  unfold Nonce.onChain
  split
  · exact h
  · trivial

theorem ofClock_encoded_inj {time index time' index' : ℤ} :
    (ofClock time index).encoded.toNat = (ofClock time' index').encoded.toNat ↔
      ofClock time index = ofClock time' index' := by
  have low := ofClock_encoded_nonneg time index
  have low' := ofClock_encoded_nonneg time' index'
  simp only [ofClock, encoded, Nonce.value.injEq] at low low' ⊢
  omega

/-- On a chain, two nonces of one asset are alike when they are equal or the asset settles
elsewhere. -/
theorem onChain_inj {m n : Nonce} {chain : Chain} {asset : Asset} :
    m.onChain chain asset = n.onChain chain asset ↔ (asset.chain = chain → m = n) := by
  unfold onChain
  split
  · next here => exact ⟨fun same _ => same, fun same => same here⟩
  · next elsewhere => exact ⟨fun _ here => absurd here elsewhere, fun _ => rfl⟩

end Nonce

/-! ## Orders -/

namespace FillOrder

/-- A fill order that was made of an amount that some side accepts, and of nonces from pools
and from the clock. -/
structure Made (chain : Chain) (source : Amount) (destination : Asset) (key : Key)
    (nonces : Combination) (order : FillOrder) : Prop where
  accepted : ∃ (side : Side) (given : Given), side.amount given = .ok source
  drawn : ∃ a b time index : ℤ, Combination.ofPooled a b (.ofClock time index) = .ok nonces
  made : make chain source destination key nonces = .ok order

/-- The terms of an order as they stand on `chain`. -/
def termsOn (chain : Chain) (source : Amount) (destination : Asset) (nonces : Combination) :
    Terms :=
  ⟨source, destination, noncesOn chain source.asset destination nonces⟩

/-- The number of octets of a fill order. -/
def size : Chain → ℕ
  | .ethereum => 69
  | .bitcoin => 8
  | .neo => 82

theorem size_inj {chain chain' : Chain} (h : size chain = size chain') : chain = chain' := by
  cases chain <;> cases chain' <;> first | rfl | exact absurd h (by decide)

/-- What the octets of terms determine. -/
structure SameTerms (terms terms' : Terms) (n n' : ℕ) : Prop where
  asset : terms.source.asset = terms'.source.asset
  destination : terms.destination = terms'.destination
  sourceNonce : terms.nonces.source.encoded.toNat = terms'.nonces.source.encoded.toNat
  destinationNonce :
    terms.nonces.destination.encoded.toNat = terms'.nonces.destination.encoded.toNat
  amount : n = n'
  orderNonce : terms.nonces.order.encoded.toNat = terms'.nonces.order.encoded.toNat

/-- **Every field of the terms has its place in the octets.** -/
theorem layout_inj (order : ByteOrder) {terms terms' : Terms} {n n' : ℕ}
    (h : terms.nonces.Fits) (h' : terms'.nonces.Fits) (bound : n ≤ maxEncoded)
    (bound' : n' ≤ maxEncoded) :
    layout order terms n = layout order terms' n' ↔ SameTerms terms terms' n n' := by
  have two : ∀ asset : Asset, asset.number < Octets.capacity 2 := fun asset =>
    asset.number_lt.trans (by decide)
  have eight : maxEncoded < Octets.capacity 8 := by decide
  constructor
  · intro same
    -- one field after another, each as wide on both sides
    obtain ⟨asset, same⟩ := (Octets.ofNat_append_inj order (two _) (two _)).1 same
    obtain ⟨destination, same⟩ := (Octets.ofNat_append_inj order (two _) (two _)).1 same
    obtain ⟨source, same⟩ :=
      (Octets.ofNat_append_inj order h.source.lt_capacity h'.source.lt_capacity).1 same
    obtain ⟨other, same⟩ :=
      (Octets.ofNat_append_inj order h.destination.lt_capacity h'.destination.lt_capacity).1 same
    obtain ⟨amount, same⟩ := (Octets.ofNat_append_inj order (bound.trans_lt eight)
      (bound'.trans_lt eight)).1 same
    have last := List.append_cancel_left same
    exact ⟨Asset.number_inj asset, Asset.number_inj destination, source, other, amount,
      Octets.ofNat_inj order h.order.lt_capacity h'.order.lt_capacity last⟩
  · intro same
    simp only [layout, same.asset, same.destination, same.sourceNonce, same.destinationNonce,
      same.amount, same.orderNonce]

namespace Made

variable {chain chain' : Chain} {source source' : Amount} {destination destination' : Asset}
  {key key' : Key} {nonces nonces' : Combination} {order order' : FillOrder}

theorem fits (h : Made chain source destination key nonces order) : nonces.Fits := by
  obtain ⟨a, b, time, index, drawn⟩ := h.drawn
  exact Combination.fits_ofPooled (Nonce.fits_ofClock time index) drawn

theorem plain (h : Made chain source destination key nonces order) :
    nonces.source.Plain ∧ nonces.destination.Plain := by
  obtain ⟨a, b, time, index, drawn⟩ := h.drawn
  obtain ⟨ha, hb, rfl⟩ := Combination.ofPooled_eq_ok.1 drawn
  exact ⟨(Nonce.pooled_eq_ok_iff.1 ha).2, (Nonce.pooled_eq_ok_iff.1 hb).2⟩

theorem order_inj (h : Made chain source destination key nonces order)
    (h' : Made chain' source' destination' key' nonces' order') :
    nonces.order.encoded.toNat = nonces'.order.encoded.toNat ↔ nonces.order = nonces'.order := by
  obtain ⟨a, b, time, index, drawn⟩ := h.drawn
  obtain ⟨a', b', time', index', drawn'⟩ := h'.drawn
  obtain ⟨-, -, rfl⟩ := Combination.ofPooled_eq_ok.1 drawn
  obtain ⟨-, -, rfl⟩ := Combination.ofPooled_eq_ok.1 drawn'
  exact Nonce.ofClock_encoded_inj

/-- The number of the amount. -/
theorem exists_encoded (h : Made chain source destination key nonces order) :
    ∃ n : ℕ, source.encoded = .ok n ∧ n ≤ maxEncoded := by
  obtain ⟨side, given, accepted⟩ := h.accepted
  obtain ⟨d, hd, rfl⟩ := map_eq_ok.1 accepted
  obtain ⟨n, encoded, -, bound⟩ := (Side.carries_of_quantity hd).exists_encoded side.asset
  exact ⟨n, encoded, bound⟩

/-- The octets on Bitcoin: both nonces. -/
theorem encode_bitcoin (h : Made .bitcoin source destination key nonces order) :
    order.encode = .ok
      (Octets.ofNat .big 4
          (noncesOn .bitcoin source.asset destination nonces).source.encoded.toNat ++
        Octets.ofNat .big 4
          (noncesOn .bitcoin source.asset destination nonces).destination.encoded.toNat) := by
  have fits := fits_noncesOn h.fits .bitcoin source.asset destination
  cases h.made
  refine bind_eq_ok.2 ⟨_, field_nonce .big fits.source, ?_⟩
  exact bind_eq_ok.2 ⟨_, field_nonce .big fits.destination, rfl⟩

/-- The octets on Ethereum: the account, then the terms. -/
theorem encode_ethereum (h : Made .ethereum source destination key nonces order) :
    ∃ (account : Octets) (n : ℕ), key.account = .ok account ∧ source.encoded = .ok n ∧
      n ≤ maxEncoded ∧ order.encode = .ok (version ::
        (account ++ layout .big (termsOn .ethereum source destination nonces) n)) := by
  obtain ⟨n, encoded, bound⟩ := h.exists_encoded
  obtain ⟨account, haccount, rfl⟩ := map_eq_ok.1 h.made
  have fits : (termsOn .ethereum source destination nonces).nonces.Fits := fits_noncesOn h.fits ..
  have terms := encodeTerms_eq .big fits encoded bound
  refine ⟨account, n, haccount, encoded, bound, ?_⟩
  dsimp only [encode]
  unfold termsOn at terms
  rw [terms]
  rfl

/-- The octets on NEO: the compressed key, then the terms. -/
theorem encode_neo (h : Made .neo source destination key nonces order) :
    ∃ (compressed : Octets) (n : ℕ), key.neo = .ok compressed ∧ source.encoded = .ok n ∧
      n ≤ maxEncoded ∧ order.encode = .ok (version ::
        (compressed ++ layout .little (termsOn .neo source destination nonces) n)) := by
  obtain ⟨n, encoded, bound⟩ := h.exists_encoded
  obtain ⟨compressed, hkey, rfl⟩ := map_eq_ok.1 h.made
  have fits : (termsOn .neo source destination nonces).nonces.Fits := fits_noncesOn h.fits ..
  have terms := encodeTerms_eq .little fits encoded bound
  refine ⟨compressed, n, hkey, encoded, bound, ?_⟩
  dsimp only [encode]
  unfold termsOn at terms
  rw [terms]
  rfl

/-- **Each chain's structures have a length of their own.** -/
theorem exists_encode (h : Made chain source destination key nonces order) :
    ∃ octets, order.encode = .ok octets ∧ octets.length = size chain := by
  cases chain with
  | ethereum =>
    obtain ⟨account, n, haccount, -, -, encoded⟩ := h.encode_ethereum
    refine ⟨_, encoded, ?_⟩
    rw [List.length_cons, List.length_append, length_account haccount, length_layout]
    rfl
  | bitcoin =>
    refine ⟨_, h.encode_bitcoin, ?_⟩
    rw [List.length_append, Octets.length_ofNat, Octets.length_ofNat]
    rfl
  | neo =>
    obtain ⟨compressed, n, hkey, -, -, encoded⟩ := h.encode_neo
    refine ⟨_, encoded, ?_⟩
    rw [List.length_cons, List.length_append, length_neo hkey, length_layout]
    rfl

theorem chain_eq (h : Made chain source destination key nonces order)
    (h' : Made chain' source' destination' key' nonces' order')
    (same : order.encode = order'.encode) : chain = chain' := by
  obtain ⟨octets, encoded, length⟩ := h.exists_encode
  obtain ⟨octets', encoded', length'⟩ := h'.exists_encode
  rw [encoded, encoded', Except.ok.injEq] at same
  exact size_inj (by rw [← length, same, length'])

/-- The nonces of a chain are the same when their numbers are. -/
theorem nonces_inj (h : Made chain source destination key nonces order)
    (h' : Made chain' source' destination' key' nonces' order') :
    ((noncesOn chain source.asset destination nonces).source.encoded.toNat =
        (noncesOn chain' source'.asset destination' nonces').source.encoded.toNat ↔
      (noncesOn chain source.asset destination nonces).source =
        (noncesOn chain' source'.asset destination' nonces').source) ∧
    ((noncesOn chain source.asset destination nonces).destination.encoded.toNat =
        (noncesOn chain' source'.asset destination' nonces').destination.encoded.toNat ↔
      (noncesOn chain source.asset destination nonces).destination =
        (noncesOn chain' source'.asset destination' nonces').destination) :=
  ⟨(h.plain.1.onChain _ _).encoded_inj (h'.plain.1.onChain _ _),
    (h.plain.2.onChain _ _).encoded_inj (h'.plain.2.onChain _ _)⟩

/-- What two orders that open with a key have in common when their octets are the same. -/
theorem opened_inj (byteOrder : ByteOrder) (h : Made chain source destination key nonces order)
    (h' : Made chain source' destination' key' nonces' order') {k k' : Octets} {n n' : ℕ}
    (length : k.length = k'.length) (hn : source.encoded = .ok n) (hn' : source'.encoded = .ok n')
    (bound : n ≤ maxEncoded) (bound' : n' ≤ maxEncoded) :
    version :: (k ++ layout byteOrder (termsOn chain source destination nonces) n) =
        version :: (k' ++ layout byteOrder (termsOn chain source' destination' nonces') n') ↔
      k = k' ∧
      (noncesOn chain source.asset destination nonces).source =
        (noncesOn chain source'.asset destination' nonces').source ∧
      (noncesOn chain source.asset destination nonces).destination =
        (noncesOn chain source'.asset destination' nonces').destination ∧
      source.asset = source'.asset ∧ destination = destination' ∧
      source.encoded = source'.encoded ∧ nonces.order = nonces'.order := by
  have fits : (termsOn chain source destination nonces).nonces.Fits :=
    fits_noncesOn h.fits ..
  have fits' : (termsOn chain source' destination' nonces').nonces.Fits :=
    fits_noncesOn h'.fits ..
  have terms := layout_inj byteOrder fits fits' bound bound'
  obtain ⟨sources, destinations⟩ := h.nonces_inj h'
  have orders := h.order_inj h'
  rw [hn, hn', Except.ok.injEq, Int.ofNat_inj]
  constructor
  · intro same
    -- the keys are as long as each other, so that the octets part at one place
    obtain ⟨keys, same⟩ := List.append_inj (List.cons.inj same).2 length
    have agree := terms.1 same
    exact ⟨keys, sources.1 agree.sourceNonce, destinations.1 agree.destinationNonce, agree.asset,
      agree.destination, agree.amount, orders.1 agree.orderNonce⟩
  · rintro ⟨rfl, spent, received, asset, rfl, amount, clock⟩
    have agree : SameTerms (termsOn chain source destination nonces)
        (termsOn chain source' destination nonces') n n' :=
      ⟨asset, rfl, sources.2 spent, destinations.2 received, amount, orders.2 clock⟩
    rw [terms.2 agree]

/-- The octets of two orders are the same exactly when all that their chain is told is. -/
theorem same_octets (h : Made chain source destination key nonces order)
    (h' : Made chain' source' destination' key' nonces' order') :
    order.encode = order'.encode ↔
      chain = chain' ∧
      (noncesOn chain source.asset destination nonces).source =
        (noncesOn chain' source'.asset destination' nonces').source ∧
      (noncesOn chain source.asset destination nonces).destination =
        (noncesOn chain' source'.asset destination' nonces').destination ∧
      (chain = .ethereum → key.account = key'.account) ∧
      (chain = .neo → key.neo = key'.neo) ∧
      (chain ≠ .bitcoin → source.asset = source'.asset ∧ destination = destination' ∧
        source.encoded = source'.encoded ∧ nonces.order = nonces'.order) := by
  by_cases apart : chain = chain'
  swap
  · exact ⟨fun same => absurd (h.chain_eq h' same) apart, fun same => absurd same.1 apart⟩
  subst apart
  cases chain with
  | ethereum =>
    obtain ⟨account, n, haccount, hn, bound, encoded⟩ := h.encode_ethereum
    obtain ⟨account', n', haccount', hn', bound', encoded'⟩ := h'.encode_ethereum
    have length := (length_account haccount).trans (length_account haccount').symm
    rw [encoded, encoded', Except.ok.injEq, h.opened_inj .big h' length hn hn' bound bound',
      haccount, haccount', Except.ok.injEq]
    simp only [true_and, reduceCtorEq, ne_eq, not_false_eq_true, forall_const, false_implies]
    tauto
  | bitcoin =>
    have fits := fits_noncesOn h.fits .bitcoin source.asset destination
    have fits' := fits_noncesOn h'.fits .bitcoin source'.asset destination'
    obtain ⟨sources, destinations⟩ := h.nonces_inj h'
    rw [h.encode_bitcoin, h'.encode_bitcoin, Except.ok.injEq]
    constructor
    · intro same
      obtain ⟨spent, same⟩ := (Octets.ofNat_append_inj .big fits.source.lt_capacity
        fits'.source.lt_capacity).1 same
      have received := Octets.ofNat_inj .big fits.destination.lt_capacity
        fits'.destination.lt_capacity same
      exact ⟨rfl, sources.1 spent, destinations.1 received, nofun, nofun, fun no => absurd rfl no⟩
    · rintro ⟨-, spent, received, -⟩
      rw [spent, received]
  | neo =>
    obtain ⟨compressed, n, hkey, hn, bound, encoded⟩ := h.encode_neo
    obtain ⟨compressed', n', hkey', hn', bound', encoded'⟩ := h'.encode_neo
    have length := (length_neo hkey).trans (length_neo hkey').symm
    rw [encoded, encoded', Except.ok.injEq, h.opened_inj .little h' length hn hn' bound bound',
      hkey, hkey', Except.ok.injEq]
    simp only [true_and, reduceCtorEq, ne_eq, not_false_eq_true, forall_const, false_implies]
    tauto

/-- **Octets settle one order only.**  Fill orders that were made of accepted amounts and of
nonces from pools and from the clock are encoded, and their octets are the same exactly when
their chains and their nonces on the chain are and, on Ethereum and NEO, also the account or
the compressed key, both assets, the number of the amount, and the order's own nonce.  So
octets of different chains differ, and for one amount, destination and key two combinations
of nonces give the same octets exactly when they agree on what settles on the chain. -/
theorem encode_eq_iff (h : Made chain source destination key nonces order)
    (h' : Made chain' source' destination' key' nonces' order') :
    (∃ octets octets', order.encode = .ok octets ∧ order'.encode = .ok octets' ∧
      (chain ≠ chain' → octets ≠ octets')) ∧
    (order.encode = order'.encode ↔
      chain = chain' ∧
      (noncesOn chain source.asset destination nonces).source =
        (noncesOn chain' source'.asset destination' nonces').source ∧
      (noncesOn chain source.asset destination nonces).destination =
        (noncesOn chain' source'.asset destination' nonces').destination ∧
      (chain = .ethereum → key.account = key'.account) ∧
      (chain = .neo → key.neo = key'.neo) ∧
      (chain ≠ .bitcoin → source.asset = source'.asset ∧ destination = destination' ∧
        source.encoded = source'.encoded ∧ nonces.order = nonces'.order)) ∧
    (chain = chain' → source = source' → destination = destination' → key = key' →
      (order.encode = order'.encode ↔
        (source.asset.chain = chain → nonces.source = nonces'.source) ∧
        (destination.chain = chain → nonces.destination = nonces'.destination) ∧
        (chain ≠ .bitcoin → nonces.order = nonces'.order))) := by
  obtain ⟨octets, encoded, -⟩ := h.exists_encode
  obtain ⟨octets', encoded', -⟩ := h'.exists_encode
  have same_iff := h.same_octets h'
  refine ⟨⟨octets, octets', encoded, encoded', ?_⟩, same_iff, ?_⟩
  · rintro apart rfl
    exact apart (h.chain_eq h' (encoded.trans encoded'.symm))
  · rintro rfl rfl rfl rfl
    rw [same_iff]
    simp only [noncesOn, Nonce.onChain_inj, true_and, implies_true]

end Made

namespace Sample

/-- One and a half units of gas. -/
def amount : Amount := ⟨.gas, .number ⟨false, 15000, -4⟩, 4⟩

/-- A key on NEO's curve. -/
def key : Key := ⟨.secp256r1, "02" ++ String.ofList (List.replicate 64 'a')⟩

/-- Nonces of gas and of ether. -/
def nonces (a b : ℤ) : Combination := ⟨.value a, .value b, .ofClock 1600000000000 1⟩

/-- The fill order on NEO that spends the gas for ether. -/
def order (a b : ℤ) : FillOrder :=
  .neo (0x02 :: List.replicate 32 0xaa) (termsOn .neo amount .eth (nonces a b))

theorem made {a b : ℤ} (ha : Nonce.pooled a = .ok a) (hb : Nonce.pooled b = .ok b) :
    Made .neo amount .eth key (nonces a b) (order a b) := by
  have converted : key.neo = .ok (0x02 :: List.replicate 32 0xaa) := by decide +kernel
  have accepted : Side.amount ⟨.gas, 4⟩ (.text "1.5") = .ok amount := by decide +kernel
  refine ⟨⟨_, _, accepted⟩,
    ⟨a, b, 1600000000000, 1, Combination.ofPooled_eq_ok.2 ⟨ha, hb, rfl⟩⟩, ?_⟩
  rw [make, converted]
  rfl

end Sample

/-- Ether does not settle on NEO: another nonce of ether gives the same octets there, another
nonce of gas does not. -/
theorem Made.encode_eq_iff_gas :
    (Sample.order 7 3).encode = (Sample.order 7 4).encode ∧
      (Sample.order 7 3).encode ≠ (Sample.order 8 3).encode := by
  have first := Sample.made (a := 7) (b := 3) (by decide) (by decide)
  have second := Sample.made (a := 7) (b := 4) (by decide) (by decide)
  have third := Sample.made (a := 8) (b := 3) (by decide) (by decide)
  refine ⟨((first.encode_eq_iff second).2.2 rfl rfl rfl rfl).2 ⟨fun _ => rfl, ?_, fun _ => rfl⟩,
    fun same => ?_⟩
  · exact fun here => absurd here (by decide)
  · have equal := (((first.encode_eq_iff third).2.2 rfl rfl rfl rfl).1 same).1 rfl
    exact absurd equal (by decide)

end FillOrder

end SignedOrders
