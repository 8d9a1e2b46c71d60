import SignedOrders.Key
import SignedOrders.Proofs.Hexadecimal
import SignedOrders.Proofs.Secp256k1.Root

/-!
# One key, many encodings

A public key is given by one of the encodings of its point, in one of their hexadecimal spellings.
On Ethereum all of these lead to the same account, since the point is recovered from each; and on
NEO they lead to the same compressed key, for which no point is needed (`Key.encodings_agree`).
-/

namespace SignedOrders

open Octets Secp256k1

namespace Key

variable {curve : Curve} {s : String} {octets : Octets} {x y : ℕ}

theorem octets_of_spells (h : Spells s octets) : Key.octets ⟨curve, s⟩ = .ok octets :=
  orFail_eq_ok.2 (ofMarkedHex?_of_spells h)

/-! ## Ethereum -/

theorem coordinates_of_compressed (h : octets.length = 33) :
    coordinates octets = orFail .keyNotAPoint (decompress? octets) :=
  if_pos h

theorem coordinates_of_marked (h : octets.length = 64) :
    coordinates (0x04 :: octets) = .ok octets := by
  rw [coordinates, List.length_cons, h]
  rfl

theorem coordinates_of_bare (h : octets.length = 64) : coordinates octets = .ok octets := by
  rw [coordinates, h]
  rfl

/-- **Every encoding of a point leads to its coordinates.** -/
theorem coordinates_of_mem_encodings (h : Curve.secp256k1.HasPoint x y)
    (mem : octets ∈ Curve.secp256k1.encodings x y) : coordinates octets = .ok (pair x y) := by
  simp only [Curve.encodings, List.mem_cons, List.not_mem_nil, or_false] at mem
  rcases mem with rfl | rfl | rfl
  · rw [coordinates_of_compressed (length_compress x y), decompress?_compress h]
    rfl
  · exact coordinates_of_marked (length_pair x y)
  · exact coordinates_of_bare (length_pair x y)

/-! ## NEO -/

theorem getLast?_pair (x y : ℕ) : (pair x y).getLast? = some (UInt8.ofNat y) := by
  rw [pair, ofNat, ofNat, List.getLast?_append, List.getLast?_reverse]
  rfl

/-- The parity of the last octet is that of the second coordinate. -/
theorem parityOctet_of_pair (x y : ℕ) :
    (if ((0x04 :: pair x y).getLast?.getD 0).toNat % 2 = 1 then 0x03 else 0x02) =
      parityOctet y := by
  have parity : (UInt8.ofNat y).toNat % 2 = y % 2 := by
    rw [UInt8.toNat_ofNat']
    omega
  rw [List.getLast?_cons, getLast?_pair, Option.getD_some, Option.getD_some, parity]
  rfl

/-- **Both encodings of a pair of numbers lead to the compressed one.** -/
theorem neo_of_mem_encodings (spelled : Spells s octets)
    (mem : octets ∈ Curve.secp256r1.encodings x y) :
    neo ⟨.secp256r1, s⟩ = .ok (compress x y) := by
  rw [neo, if_neg (by simp), bind_of_ok (octets_of_spells spelled)]
  simp only [Curve.encodings, List.mem_cons, List.not_mem_nil, or_false] at mem
  rcases mem with rfl | rfl
  · have mark : (compress x y).head? = some 0x02 ∨ (compress x y).head? = some 0x03 := by
      simpa [compress] using parityOctet_cases y
    rw [if_pos ⟨length_compress x y, mark⟩]
    rfl
  · have shape : (0x04 :: pair x y).length = 65 ∧ (0x04 :: pair x y).head? = some 0x04 := by
      rw [List.length_cons, length_pair]
      exact ⟨rfl, rfl⟩
    rw [if_neg (by simp [shape.1]), if_pos shape]
    dsimp only
    rw [parityOctet_of_pair, List.drop_one, List.tail_cons, pair,
      List.take_left' (length_ofNat ..)]
    rfl

/-! ## Both -/

/-- **All encodings of one key agree.**  However a point of secp256k1 is encoded and spelled, the
key has the account of the point's coordinates; and however a pair of numbers in thirty-two octets
each is encoded and spelled as a key on secp256r1, the key on NEO is the compressed encoding. -/
theorem encodings_agree (x y : ℕ) :
    (Curve.secp256k1.HasPoint x y → ∀ octets ∈ Curve.secp256k1.encodings x y,
      ∀ s, Spells s octets →
        address ⟨.secp256k1, s⟩ = .ok (addressText (accountOf (pair x y)))) ∧
    ∀ octets ∈ Curve.secp256r1.encodings x y,
      ∀ s, Spells s octets → neo ⟨.secp256r1, s⟩ = .ok (compress x y) := by
  constructor
  · intro point octets mem s spelled
    rw [address, account, if_neg (by simp), bind_of_ok (octets_of_spells spelled),
      bind_of_ok (coordinates_of_mem_encodings point mem)]
    rfl
  · intro octets mem s spelled
    exact neo_of_mem_encodings spelled mem

/-- The generator, compressed with the mark `0x` and capital letters, and as a bare pair; and its
coordinates as a key on the other curve. -/
theorem encodings_agree_generator :
    Curve.secp256k1.HasPoint Point.generator.x Point.generator.y ∧
      address ⟨.secp256k1,
          "0x0279BE667EF9DCBBAC55A06295CE870B07029BFCDB2DCE28D959F2815B16F81798"⟩ =
        .ok (addressText (accountOf (pair Point.generator.x Point.generator.y))) ∧
      address ⟨.secp256k1, toHex (pair Point.generator.x Point.generator.y)⟩ =
        .ok (addressText (accountOf (pair Point.generator.x Point.generator.y))) ∧
      neo ⟨.secp256r1, toHex (0x04 :: pair Point.generator.x Point.generator.y)⟩ =
        .ok (compress Point.generator.x Point.generator.y) := by
  have point : Curve.secp256k1.HasPoint Point.generator.x Point.generator.y := by decide
  have spelled :
      Spells "0x0279BE667EF9DCBBAC55A06295CE870B07029BFCDB2DCE28D959F2815B16F81798"
        (compress Point.generator.x Point.generator.y) :=
    ⟨"0279BE667EF9DCBBAC55A06295CE870B07029BFCDB2DCE28D959F2815B16F81798".toList,
      by decide +kernel, .inr (by decide +kernel)⟩
  obtain ⟨ethereum, neo⟩ := encodings_agree Point.generator.x Point.generator.y
  exact ⟨point, ethereum point _ (by simp [Curve.encodings]) _ spelled,
    ethereum point _ (by simp [Curve.encodings]) _ (spells_toHex _),
    neo _ (by simp [Curve.encodings]) _ (spells_toHex _)⟩

end Key

end SignedOrders
