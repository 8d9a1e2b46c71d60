import SignedOrders.FillOrder
import SignedOrders.Proofs.Amount

/-!
# Amounts in settlement structures

The terms of a fill order stand in fixed positions, so the number that an amount is
encoded as is found in eight octets of the structure.  With nonces from pools and from the
clock, every field has room for its number and encoding does not fail
(`FillOrder.exists_encode`).  Together with the exactness of amounts, what a payload says in
words and what settles on a chain are one number (`Side.amount_exact`).
-/

namespace SignedOrders

/-! ## Nonces -/

namespace Nonce

/-- The nonce has a place in a field of 32 bits. -/
def Fits (nonce : Nonce) : Prop := 0 ≤ nonce.encoded ∧ nonce.encoded < 0x100000000

theorem fits_crosschain : Fits .crosschain := ⟨by decide, by decide⟩

theorem fits_ofClock (time index : ℤ) : Fits (ofClock time index) :=
  ⟨ofClock_encoded_nonneg time index, ofClock_encoded_lt time index⟩

theorem fits_pooled {n m : ℤ} (h : pooled n = .ok m) : Fits (.value m) := by
  obtain ⟨rfl, low, high⟩ := pooled_eq_ok_iff.1 h
  have bound : (largestPooled : ℤ) < 0x100000000 := by decide
  exact ⟨low, high.trans_lt bound⟩

theorem Fits.lt_capacity {nonce : Nonce} (h : nonce.Fits) :
    nonce.encoded.toNat < Octets.capacity 4 :=
  (Int.toNat_lt h.1).2 h.2

theorem Fits.onChain {nonce : Nonce} (h : Fits nonce) (chain : Chain) (asset : Asset) :
    Fits (nonce.onChain chain asset) := by
  unfold Nonce.onChain
  split
  · exact h
  · exact fits_crosschain

end Nonce

/-- All nonces of the combination have a place in a settlement structure. -/
structure Combination.Fits (nonces : Combination) : Prop where
  source : nonces.source.Fits
  destination : nonces.destination.Fits
  order : nonces.order.Fits

/-- Nonces from pools and from the clock fit. -/
theorem Combination.fits_ofPooled {source destination : ℤ} {order : Nonce} {nonces : Combination}
    (horder : order.Fits) (h : ofPooled source destination order = .ok nonces) : nonces.Fits := by
  obtain ⟨a, ha, h⟩ := bind_eq_ok.1 h
  obtain ⟨b, hb, h⟩ := bind_eq_ok.1 h
  cases h
  exact ⟨Nonce.fits_pooled ha, Nonce.fits_pooled hb, horder⟩

namespace FillOrder

theorem fits_noncesOn {nonces : Combination} (h : nonces.Fits) (chain : Chain)
    (source destination : Asset) : (noncesOn chain source destination nonces).Fits :=
  ⟨h.source.onChain chain source, h.destination.onChain chain destination, h.order⟩

/-! ## Fields -/

theorem field_eq_ok (order : ByteOrder) {width : ℕ} {n : ℤ} (low : 0 ≤ n)
    (high : n < Octets.capacity width) :
    field order width n = .ok (Octets.ofNat order width n.toNat) := by
  rw [field, Octets.ofInt?, if_pos ⟨low, high⟩]
  rfl

theorem field_nonce (order : ByteOrder) {nonce : Nonce} (h : nonce.Fits) :
    field order 4 nonce.encoded = .ok (Octets.ofNat order 4 nonce.encoded.toNat) :=
  field_eq_ok order h.1 h.2

theorem field_asset (order : ByteOrder) (asset : Asset) :
    field order 2 asset.number = .ok (Octets.ofNat order 2 asset.number) := by
  refine field_eq_ok order (Int.natCast_nonneg _) ?_
  cases asset <;> decide

theorem field_eight (order : ByteOrder) {n : ℕ} (h : n ≤ maxEncoded) :
    field order 8 (n : ℤ) = .ok (Octets.ofNat order 8 n) := by
  have capacity : maxEncoded < Octets.capacity 8 := by decide
  exact field_eq_ok order (Int.natCast_nonneg n) (Int.ofNat_lt.2 (h.trans_lt capacity))

theorem field_rate (order : ByteOrder) (rate : RateBound) :
    field order 8 rate.value = .ok (Octets.ofNat order 8 rate.value) := by
  refine field_eight order ?_
  cases rate with
  | least => exact Nat.zero_le _
  | greatest => exact le_rfl

/-- The bounds on the rate and the fee, which are the same for all orders. -/
def rates (order : ByteOrder) : Octets :=
  Octets.ofNat order 8 RateBound.least.value ++ (Octets.ofNat order 8 RateBound.greatest.value ++
    Octets.ofNat order 8 RateBound.fee.value)

/-- The terms field by field, for an amount that is encoded as `n`. -/
def layout (order : ByteOrder) (terms : Terms) (n : ℕ) : Octets :=
  Octets.ofNat order 2 terms.source.asset.number ++
    (Octets.ofNat order 2 terms.destination.number ++
      (Octets.ofNat order 4 terms.nonces.source.encoded.toNat ++
        (Octets.ofNat order 4 terms.nonces.destination.encoded.toNat ++
          (Octets.ofNat order 8 n ++
            (rates order ++ Octets.ofNat order 4 terms.nonces.order.encoded.toNat)))))

theorem length_layout (order : ByteOrder) (terms : Terms) (n : ℕ) :
    (layout order terms n).length = 48 := by
  simp only [layout, rates, List.length_append, Octets.length_ofNat]

/-- Terms with fitting nonces are encoded. -/
theorem encodeTerms_eq (order : ByteOrder) {terms : Terms} (h : terms.nonces.Fits) {n : ℕ}
    (hn : terms.source.encoded = .ok n) (bound : n ≤ maxEncoded) :
    encodeTerms order terms = .ok (layout order terms n) := by
  refine bind_eq_ok.2 ⟨_, field_asset order _, ?_⟩
  refine bind_eq_ok.2 ⟨_, field_asset order _, ?_⟩
  refine bind_eq_ok.2 ⟨_, field_nonce order h.source, ?_⟩
  refine bind_eq_ok.2 ⟨_, field_nonce order h.destination, ?_⟩
  refine bind_eq_ok.2 ⟨_, hn, ?_⟩
  refine bind_eq_ok.2 ⟨_, field_eight order bound, ?_⟩
  refine bind_eq_ok.2 ⟨_, field_rate order _, ?_⟩
  refine bind_eq_ok.2 ⟨_, field_rate order _, ?_⟩
  refine bind_eq_ok.2 ⟨_, field_rate order _, ?_⟩
  refine bind_eq_ok.2 ⟨_, field_nonce order h.order, ?_⟩
  exact congrArg Except.ok (by simp only [layout, rates, List.append_assoc])

/-- The terms of an order: twelve octets for assets and nonces, eight for the amount, and
twenty-eight for what follows. -/
theorem exists_encodeTerms (order : ByteOrder) {terms : Terms} (h : terms.nonces.Fits) {n : ℕ}
    (hn : terms.source.encoded = .ok n) (bound : n ≤ maxEncoded) :
    ∃ before after : Octets, before.length = 12 ∧
      encodeTerms order terms = .ok (before ++ (Octets.ofNat order 8 n ++ after)) := by
  refine ⟨Octets.ofNat order 2 terms.source.asset.number ++
      Octets.ofNat order 2 terms.destination.number ++
      (Octets.ofNat order 4 terms.nonces.source.encoded.toNat ++
        Octets.ofNat order 4 terms.nonces.destination.encoded.toNat),
    rates order ++ Octets.ofNat order 4 terms.nonces.order.encoded.toNat, ?_, ?_⟩
  · simp only [List.length_append, Octets.length_ofNat]
  · rw [encodeTerms_eq order h hn bound]
    exact congrArg Except.ok (by simp only [layout, List.append_assoc])

/-! ## Structures -/

theorem length_account {key : Key} {account : Octets} (h : key.account = .ok account) :
    account.length = 20 := by
  unfold Key.account at h
  split at h
  · cases h
  obtain ⟨octets, -, h⟩ := bind_eq_ok.1 h
  obtain ⟨coordinates, -, h⟩ := bind_eq_ok.1 h
  cases h
  rw [Key.accountOf, List.length_drop, Hash.Keccak256.length_digest]

theorem length_neo {key : Key} {octets : Octets} (h : key.neo = .ok octets) :
    octets.length = 33 := by
  unfold Key.neo at h
  split at h
  · cases h
  obtain ⟨given, -, h⟩ := bind_eq_ok.1 h
  split at h
  · next short =>
    cases h
    exact short.1
  split at h
  · next long =>
    cases h
    rw [List.length_cons, List.length_take, List.length_drop, long.1]
    rfl
  · cases h

/-- A structure that opens with a key and goes on with terms: the amount is found in the
eight octets after the key, the assets and the nonces. -/
theorem exists_amount (order : ByteOrder) (key : Octets) (terms : Terms) (h : terms.nonces.Fits)
    {n : ℕ} (hn : terms.source.encoded = .ok n) (bound : n ≤ maxEncoded) :
    ∃ octets,
      (encodeTerms order terms).map (fun octets => version :: (key ++ octets)) = .ok octets ∧
      Octets.toNat order ((octets.drop (13 + key.length)).take 8) = n := by
  obtain ⟨before, after, length, encoded⟩ := exists_encodeTerms order h hn bound
  refine ⟨_, map_eq_ok.2 ⟨_, encoded, rfl⟩, ?_⟩
  -- the amount stands at a fixed place, since all before it has a fixed width
  have start : (version :: (key ++ before)).length = 13 + key.length := by
    rw [List.length_cons, List.length_append, length]
    omega
  have middle : (Octets.ofNat order 8 n).length = 8 := Octets.length_ofNat ..
  have capacity : maxEncoded < Octets.capacity 8 := by decide
  have split : version :: (key ++ (before ++ (Octets.ofNat order 8 n ++ after))) =
      (version :: (key ++ before)) ++ (Octets.ofNat order 8 n ++ after) := by
    simp only [List.cons_append, List.append_assoc]
  rw [split, ← start, List.drop_left, List.take_left' middle]
  exact Octets.toNat_ofNat order (bound.trans_lt capacity)

/-- **A fill order on Ethereum with fitting nonces is encoded**, its amount at octet 33. -/
theorem exists_encode_ethereum {source : Amount} {destination : Asset} {key : Key}
    {nonces : Combination} {order : FillOrder} (h : nonces.Fits) {n : ℕ}
    (hn : source.encoded = .ok n) (bound : n ≤ maxEncoded)
    (made : make .ethereum source destination key nonces = .ok order) :
    ∃ octets, order.encode = .ok octets ∧ Octets.toNat .big ((octets.drop 33).take 8) = n := by
  obtain ⟨account, haccount, rfl⟩ := map_eq_ok.1 made
  have found := exists_amount .big account
    ⟨source, destination, noncesOn .ethereum source.asset destination nonces⟩
    (fits_noncesOn h ..) hn bound
  rwa [length_account haccount] at found

/-- **A fill order on NEO with fitting nonces is encoded**, its amount at octet 46. -/
theorem exists_encode_neo {source : Amount} {destination : Asset} {key : Key}
    {nonces : Combination} {order : FillOrder} (h : nonces.Fits) {n : ℕ}
    (hn : source.encoded = .ok n) (bound : n ≤ maxEncoded)
    (made : make .neo source destination key nonces = .ok order) :
    ∃ octets, order.encode = .ok octets ∧
      Octets.toNat .little ((octets.drop 46).take 8) = n := by
  obtain ⟨compressed, hkey, rfl⟩ := map_eq_ok.1 made
  have found := exists_amount .little compressed
    ⟨source, destination, noncesOn .neo source.asset destination nonces⟩
    (fits_noncesOn h ..) hn bound
  rwa [length_neo hkey] at found

end FillOrder

/-! ## Amounts -/

/-- **What a payload says in words and what settles on a chain are one number.**  An amount
that a side accepts is encoded as exactly its number of hundred-millionths, in 64 bits; its
text is a literal that denotes this number and is accepted as the same amount; and with
nonces from pools and from the clock, its fill orders on Ethereum and NEO are encoded with
this number. -/
theorem Side.amount_exact {side : Side} {given : Given} {amount : Amount}
    (h : side.amount given = .ok amount) :
    ∃ (d : Decimal) (n : ℕ), amount.value = .number d ∧ amount.encoded = .ok n ∧
      (n : ℚ) = d.value * 10 ^ 8 ∧ n ≤ 2 ^ 64 - 1 ∧
      (∃ l : Literal, amount.wireText = String.ofList l.chars ∧ l.value = n / 10 ^ 8) ∧
      side.amount (.text amount.wireText) = .ok amount ∧
      ∀ (destination : Asset) (key : Key) (a b time index : ℤ) (nonces : Combination)
        (order : FillOrder), Combination.ofPooled a b (Nonce.ofClock time index) = .ok nonces →
        (FillOrder.make .ethereum amount destination key nonces = .ok order →
          ∃ octets, order.encode = .ok octets ∧
            Octets.toNat .big ((octets.drop 33).take 8) = n) ∧
        (FillOrder.make .neo amount destination key nonces = .ok order →
          ∃ octets, order.encode = .ok octets ∧
            Octets.toNat .little ((octets.drop 46).take 8) = n) := by
  obtain ⟨d, hd, rfl⟩ := map_eq_ok.1 h
  have carried := carries_of_quantity hd
  obtain ⟨n, encoded, exact_value, bound⟩ := carried.exists_encoded side.asset
  have value : (n : ℚ) = d.value * 10 ^ 8 := by
    rw [exact_value, Decimal.value_of_not_negative carried.unsigned]
    rfl
  refine ⟨d, n, rfl, encoded, value, bound, ⟨d.literal, ?_, ?_⟩, ?_, ?_⟩
  · exact congrArg String.ofList d.plainChars_eq
  · rw [Decimal.value_literal, value, mul_div_cancel_right₀ _ (by norm_num)]
  · exact map_eq_ok.2 ⟨d, carried.quantity_toPlain, rfl⟩
  · intro destination key a b time index nonces order hnonces
    have fits := Combination.fits_ofPooled (Nonce.fits_ofClock time index) hnonces
    exact ⟨FillOrder.exists_encode_ethereum fits encoded bound,
      FillOrder.exists_encode_neo fits encoded bound⟩

/-- One and a half units of gas: written with four places, encoded as a hundred and fifty
million, and found so in a fill order on NEO. -/
theorem Side.amount_exact_gas :
    Side.amount ⟨.gas, 4⟩ (.text "1.5") = .ok ⟨.gas, .number ⟨false, 15000, -4⟩, 4⟩ ∧
      ∃ order octets, FillOrder.make .neo ⟨.gas, .number ⟨false, 15000, -4⟩, 4⟩ .eth
        ⟨.secp256r1, "02" ++ String.ofList (List.replicate 64 'a')⟩
        ⟨.value 7, .value 3, .ofClock 1600000000000 1⟩ = .ok order ∧
        order.encode = .ok octets ∧
        Octets.toNat .little ((octets.drop 46).take 8) = 150000000 := by
  have accepted : Side.amount ⟨.gas, 4⟩ (.text "1.5") =
      .ok ⟨.gas, .number ⟨false, 15000, -4⟩, 4⟩ := by decide +kernel
  have nonces : Combination.ofPooled 7 3 (.ofClock 1600000000000 1) =
      .ok ⟨.value 7, .value 3, .ofClock 1600000000000 1⟩ := by decide +kernel
  obtain ⟨d, n, hd, -, hn, -, -, -, structures⟩ := Side.amount_exact accepted
  cases hd
  have number : n = 150000000 := by
    have hundredMillionths : (n : ℚ) = 150000000 := by
      rw [hn]
      norm_num [Decimal.value, Decimal.magnitude]
    exact_mod_cast hundredMillionths
  have converted : Key.neo ⟨.secp256r1, "02" ++ String.ofList (List.replicate 64 'a')⟩ =
      .ok (0x02 :: List.replicate 32 0xaa) := by decide +kernel
  have made : FillOrder.make .neo ⟨.gas, .number ⟨false, 15000, -4⟩, 4⟩ .eth
      ⟨.secp256r1, "02" ++ String.ofList (List.replicate 64 'a')⟩
      ⟨.value 7, .value 3, .ofClock 1600000000000 1⟩ = .ok (.neo (0x02 :: List.replicate 32 0xaa)
        ⟨⟨.gas, .number ⟨false, 15000, -4⟩, 4⟩, .eth, FillOrder.noncesOn .neo .gas .eth
          ⟨.value 7, .value 3, .ofClock 1600000000000 1⟩⟩) := by
    rw [FillOrder.make]
    dsimp only
    rw [converted]
    rfl
  obtain ⟨octets, encoded, found⟩ := (structures .eth _ 7 3 1600000000000 1 _ _ nonces).2 made
  exact ⟨accepted, _, octets, made, encoded, found.trans number⟩

end SignedOrders
