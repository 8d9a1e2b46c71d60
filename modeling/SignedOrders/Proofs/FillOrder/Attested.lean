import SignedOrders.Proofs.FillOrder
import SignedOrders.Signer.Basic

/-!
# What an attested fill order says

A fill order is reported with the nonces of its chain and a signature in hexadecimal, while
the octets that are signed state the nonces in their own way.  Both come from one combination
of nonces: the reported numbers are found in the signed octets at the places of the chain
(`writtenNonces_of_encode`), and the text of the signature is read back as the numbers that
the signer has given (`statesSignature_of_signatureText`).
-/

namespace SignedOrders

/-! ## Hexadecimal text -/

namespace Octets

theorem hexValue?_hexDigit : ∀ n < 16, hexValue? (hexDigit n) = some n := by decide

theorem isHexBlank_hexDigit : ∀ n < 16, isHexBlank (hexDigit n) = false := by decide

theorem ofHexChars?_hexChars (octets : Octets) : ofHexChars? (hexChars octets) = some octets := by
  induction octets with
  | nil => rfl
  | cons octet octets ih =>
    have bound := octet.toNat_lt
    have high : octet.toNat / 16 < 16 := by omega
    have low : octet.toNat % 16 < 16 := by omega
    -- an octet is put together from its two digits
    have whole : UInt8.ofNat (16 * (octet.toNat / 16) + octet.toNat % 16) = octet := by
      rw [Nat.div_add_mod, UInt8.ofNat_toNat]
    rw [hexChars] at ih
    simp only [hexChars, List.flatMap_cons, List.cons_append, List.nil_append, ofHexChars?,
      isHexBlank_hexDigit _ high, hexValue?_hexDigit _ high, hexValue?_hexDigit _ low, ih,
      Option.bind_eq_bind, Option.bind_some, Option.pure_def, whole, Bool.false_eq_true, if_false]

/-- **Octets in hexadecimal are read back.** -/
theorem ofHex?_toHex (octets : Octets) : ofHex? (toHex octets) = some octets := by
  rw [ofHex?, toHex, String.toList_ofList]
  exact ofHexChars?_hexChars octets

theorem ofInt?_eq_some_iff {order : ByteOrder} {width : ℕ} {n : ℤ} {octets : Octets} :
    ofInt? order width n = some octets ↔
      (0 ≤ n ∧ n < capacity width) ∧ octets = ofNat order width n.toNat := by
  unfold ofInt?
  split <;> simp_all [eq_comm]

/-- A number in a field is read back. -/
theorem toNat_of_ofInt? {order : ByteOrder} {width : ℕ} {n : ℤ} {octets : Octets}
    (h : ofInt? order width n = some octets) :
    octets.length = width ∧ (toNat order octets : ℤ) = n := by
  obtain ⟨⟨low, high⟩, rfl⟩ := ofInt?_eq_some_iff.1 h
  rw [toNat_ofNat order ((Int.toNat_lt low).2 high), Int.toNat_of_nonneg low]
  exact ⟨length_ofNat .., rfl⟩

/-- What stands after `before`, in a field of `width` octets. -/
theorem take_drop_append {before middle after : Octets} {start width : ℕ}
    (hbefore : before.length = start) (hmiddle : middle.length = width) :
    ((before ++ (middle ++ after)).drop start).take width = middle := by
  rw [List.drop_left' hbefore, List.take_left' hmiddle]

end Octets

/-- The numbers of a signature as a child key makes them. -/
structure ChildSignature.InRange (signature : ChildSignature) : Prop where
  r : 0 ≤ signature.r ∧ signature.r < 2 ^ 256
  s : 0 ≤ signature.s ∧ signature.s < 2 ^ 256
  v : signature.v = 0 ∨ signature.v = 1

namespace FillOrder

/-! ## Nonces -/

theorem field_eq_ok_iff {order : ByteOrder} {width : ℕ} {n : ℤ} {octets : Octets} :
    field order width n = .ok octets ↔ Octets.ofInt? order width n = some octets :=
  orFail_eq_ok

theorem fits_of_field {order : ByteOrder} {nonce : Nonce} {octets : Octets}
    (h : field order 4 nonce.encoded = .ok octets) :
    nonce.Fits ∧ octets = Octets.ofNat order 4 nonce.encoded.toNat :=
  Octets.ofInt?_eq_some_iff.1 (field_eq_ok_iff.1 h)

/-- Terms are encoded only with fitting nonces, after four octets for both assets. -/
theorem exists_of_encodeTerms {order : ByteOrder} {terms : Terms} {octets : Octets}
    (h : encodeTerms order terms = .ok octets) :
    terms.nonces.source.Fits ∧ terms.nonces.destination.Fits ∧
      ∃ assets after : Octets, assets.length = 4 ∧
        octets = assets ++ (Octets.ofNat order 4 terms.nonces.source.encoded.toNat ++
          (Octets.ofNat order 4 terms.nonces.destination.encoded.toNat ++ after)) := by
  obtain ⟨spent, hspent, h⟩ := bind_eq_ok.1 h
  obtain ⟨received, hreceived, h⟩ := bind_eq_ok.1 h
  obtain ⟨source, hsource, h⟩ := bind_eq_ok.1 h
  obtain ⟨destination, hdestination, h⟩ := bind_eq_ok.1 h
  obtain ⟨n, -, h⟩ := bind_eq_ok.1 h
  obtain ⟨amount, -, h⟩ := bind_eq_ok.1 h
  obtain ⟨least, -, h⟩ := bind_eq_ok.1 h
  obtain ⟨greatest, -, h⟩ := bind_eq_ok.1 h
  obtain ⟨fee, -, h⟩ := bind_eq_ok.1 h
  obtain ⟨clock, -, h⟩ := bind_eq_ok.1 h
  cases h
  obtain ⟨sourceFits, rfl⟩ := fits_of_field hsource
  obtain ⟨destinationFits, rfl⟩ := fits_of_field hdestination
  refine ⟨sourceFits, destinationFits, spent ++ received,
    amount ++ (least ++ greatest ++ fee) ++ clock, ?_, by simp only [List.append_assoc]⟩
  rw [List.length_append, (Octets.toNat_of_ofInt? (field_eq_ok_iff.1 hspent)).1,
    (Octets.toNat_of_ofInt? (field_eq_ok_iff.1 hreceived)).1]

/-- Where the nonces stand in the octets of a chain's fill orders. -/
def noncePlace : Chain → ByteOrder × ℕ
  | .ethereum => (.big, 25)
  | .bitcoin => (.big, 0)
  | .neo => (.little, 38)

/-- The two numbers that stand for nonces in the octets of a fill order. -/
def writtenNonces (chain : Chain) (octets : Octets) : ℕ × ℕ :=
  let (order, start) := noncePlace chain
  (Octets.toNat order ((octets.drop start).take 4),
    Octets.toNat order ((octets.drop (start + 4)).take 4))

/-- Two nonces one after another are read back. -/
theorem read_nonces (order : ByteOrder) {source destination : Nonce} (hs : source.Fits)
    (hd : destination.Fits) (after : Octets) {before : Octets} {start : ℕ}
    (h : before.length = start) :
    let octets := before ++ (Octets.ofNat order 4 source.encoded.toNat ++
      (Octets.ofNat order 4 destination.encoded.toNat ++ after))
    (Octets.toNat order ((octets.drop start).take 4) : ℤ) = source.encoded ∧
      (Octets.toNat order ((octets.drop (start + 4)).take 4) : ℤ) = destination.encoded := by
  intro octets
  have opened : (before ++ Octets.ofNat order 4 source.encoded.toNat).length = start + 4 := by
    rw [List.length_append, h, Octets.length_ofNat]
  have first : (octets.drop start).take 4 = Octets.ofNat order 4 source.encoded.toNat :=
    Octets.take_drop_append h (Octets.length_ofNat ..)
  have second : (octets.drop (start + 4)).take 4 =
      Octets.ofNat order 4 destination.encoded.toNat := by
    have split : octets = before ++ Octets.ofNat order 4 source.encoded.toNat ++
        (Octets.ofNat order 4 destination.encoded.toNat ++ after) :=
      (List.append_assoc ..).symm
    rw [split, Octets.take_drop_append opened (Octets.length_ofNat ..)]
  rw [first, second, Octets.toNat_ofNat order hs.lt_capacity,
    Octets.toNat_ofNat order hd.lt_capacity, Int.toNat_of_nonneg hs.1, Int.toNat_of_nonneg hd.1]
  exact ⟨rfl, rfl⟩

variable {chain : Chain} {source : Amount} {destination : Asset} {key : Key}
  {nonces : Combination} {order : FillOrder} {octets : Octets}

/-- An order keeps its chain and the nonces of its assets there. -/
theorem nonces_of_make (h : make chain source destination key nonces = .ok order) :
    order.chain = chain ∧ order.sourceNonce = nonces.source.onChain chain source.asset ∧
      order.destinationNonce = nonces.destination.onChain chain destination := by
  cases chain with
  | ethereum =>
    obtain ⟨account, -, rfl⟩ := map_eq_ok.1 h
    exact ⟨rfl, rfl, rfl⟩
  | bitcoin =>
    cases h
    exact ⟨rfl, rfl, rfl⟩
  | neo =>
    obtain ⟨compressed, -, rfl⟩ := map_eq_ok.1 h
    exact ⟨rfl, rfl, rfl⟩

/-- Octets that open with a key and go on with terms state the nonces of the terms. -/
theorem read_terms {byteOrder : ByteOrder} {terms : Terms} {opening octets : Octets} {start : ℕ}
    (h : encodeTerms byteOrder terms = .ok octets) (place : opening.length + 5 = start) :
    (Octets.toNat byteOrder (((version :: (opening ++ octets)).drop start).take 4) : ℤ) =
        terms.nonces.source.encoded ∧
      (Octets.toNat byteOrder (((version :: (opening ++ octets)).drop (start + 4)).take 4) : ℤ) =
        terms.nonces.destination.encoded := by
  obtain ⟨source, destination, assets, after, length, rfl⟩ := exists_of_encodeTerms h
  -- before the nonces stand the version, what opens the octets, and both assets
  have opened : (version :: (opening ++ assets)).length = start := by
    rw [List.length_cons, List.length_append, length]
    omega
  simpa only [List.cons_append, List.append_assoc] using
    read_nonces byteOrder source destination after opened

/-- **The signed octets state the nonces of the order**, at the places of its chain. -/
theorem writtenNonces_of_encode (made : make chain source destination key nonces = .ok order)
    (encoded : order.encode = .ok octets) :
    ((writtenNonces chain octets).1 : ℤ) = order.sourceNonce.encoded ∧
      ((writtenNonces chain octets).2 : ℤ) = order.destinationNonce.encoded := by
  cases chain with
  | ethereum =>
    obtain ⟨account, haccount, rfl⟩ := map_eq_ok.1 made
    rw [encode] at encoded
    obtain ⟨terms, hterms, rfl⟩ := map_eq_ok.1 encoded
    exact read_terms hterms (by rw [length_account haccount])
  | bitcoin =>
    cases made
    obtain ⟨spent, hspent, encoded⟩ := bind_eq_ok.1 encoded
    obtain ⟨received, hreceived, encoded⟩ := bind_eq_ok.1 encoded
    cases encoded
    obtain ⟨sourceFits, rfl⟩ := fits_of_field hspent
    obtain ⟨destinationFits, rfl⟩ := fits_of_field hreceived
    have nothing : ([] : Octets).length = 0 := rfl
    have read := read_nonces .big sourceFits destinationFits [] nothing
    rwa [List.nil_append, List.append_nil] at read
  | neo =>
    obtain ⟨compressed, hkey, rfl⟩ := map_eq_ok.1 made
    rw [encode] at encoded
    obtain ⟨terms, hterms, rfl⟩ := map_eq_ok.1 encoded
    exact read_terms hterms (by rw [length_neo hkey])

/-! ## Signatures -/

/-- The octet of the parity, counted from twenty-seven, which only Ethereum takes. -/
def parityOctets (chain : Chain) (signature : ChildSignature) : List ℤ :=
  if chain = .ethereum then [27 + signature.v] else []

/-- The octets state a signature as `chain` takes it: both numbers in thirty-two octets, then
the octet of the parity. -/
structure StatesSignature (chain : Chain) (signature : ChildSignature) (octets : Octets) :
    Prop where
  r : (Octets.toNat .big (octets.take 32) : ℤ) = signature.r
  s : (Octets.toNat .big ((octets.drop 32).take 32) : ℤ) = signature.s
  parity : (octets.drop 64).map (fun octet => (octet.toNat : ℤ)) = parityOctets chain signature
  length : octets.length = 64 + (parityOctets chain signature).length

theorem statesSignature_append {chain : Chain} {signature : ChildSignature} {r s parity : Octets}
    (hr : field .big 32 signature.r = .ok r) (hs : field .big 32 signature.s = .ok s)
    (hparity : parity.map (fun octet => (octet.toNat : ℤ)) = parityOctets chain signature) :
    StatesSignature chain signature (r ++ s ++ parity) := by
  obtain ⟨lengthR, valueR⟩ := Octets.toNat_of_ofInt? (field_eq_ok_iff.1 hr)
  obtain ⟨lengthS, valueS⟩ := Octets.toNat_of_ofInt? (field_eq_ok_iff.1 hs)
  have numbers : (r ++ s).length = 64 := by rw [List.length_append, lengthR, lengthS]
  constructor
  case r => rw [List.append_assoc, List.take_left' lengthR, valueR]
  case s => rw [List.append_assoc, Octets.take_drop_append lengthR lengthS, valueS]
  case parity => rw [List.drop_left' numbers, hparity]
  case length =>
    have last := congrArg List.length hparity
    rw [List.length_map] at last
    rw [List.length_append, numbers, last]

/-- **The text of a signature is read back as the signature.** -/
theorem statesSignature_of_signatureText {signature : ChildSignature} {text : String}
    (h : signatureText chain signature = .ok text) :
    ∃ octets, Octets.ofHex? text = some octets ∧ StatesSignature chain signature octets := by
  obtain ⟨r, hr, h⟩ := bind_eq_ok.1 h
  obtain ⟨s, hs, h⟩ := bind_eq_ok.1 h
  have numbers (other : chain ≠ .ethereum) : StatesSignature chain signature (r ++ s) := by
    have none : ([] : Octets).map (fun octet => (octet.toNat : ℤ)) =
        parityOctets chain signature := (if_neg other).symm
    simpa only [List.append_nil] using statesSignature_append hr hs none
  cases chain with
  | ethereum =>
    obtain ⟨parity, hparity, h⟩ := bind_eq_ok.1 h
    cases h
    rw [orFail_eq_ok] at hparity
    obtain ⟨length, value⟩ := Octets.toNat_of_ofInt? hparity
    obtain ⟨octet, rfl⟩ := List.length_eq_one_iff.1 length
    refine ⟨_, Octets.ofHex?_toHex _, statesSignature_append hr hs ?_⟩
    exact congrArg (fun n : ℤ => [n]) value
  | bitcoin =>
    cases h
    exact ⟨_, Octets.ofHex?_toHex _, numbers (by decide)⟩
  | neo =>
    cases h
    exact ⟨_, Octets.ofHex?_toHex _, numbers (by decide)⟩

/-- **The text of a signature can be made** when its numbers are those of a child key. -/
theorem exists_signatureText (chain : Chain) {signature : ChildSignature}
    (h : signature.InRange) : ∃ text, signatureText chain signature = .ok text := by
  have parity : 0 ≤ 27 + signature.v ∧ 27 + signature.v < Octets.capacity 1 := by
    have octet : Octets.capacity 1 = 256 := rfl
    have v := h.v
    omega
  have number {n : ℤ} (low : 0 ≤ n) (high : n < 2 ^ 256) :
      field .big 32 n = .ok (Octets.ofNat .big 32 n.toNat) := field_eq_ok .big low high
  have hr := number h.r.1 h.r.2
  have hs := number h.s.1 h.s.2
  cases chain with
  | ethereum =>
    exact ⟨_, bind_eq_ok.2 ⟨_, hr, bind_eq_ok.2 ⟨_, hs, bind_eq_ok.2
      ⟨_, orFail_eq_ok.2 (if_pos parity), rfl⟩⟩⟩⟩
  | _ => exact ⟨_, bind_eq_ok.2 ⟨_, hr, bind_eq_ok.2 ⟨_, hs, rfl⟩⟩⟩

end FillOrder

end SignedOrders
