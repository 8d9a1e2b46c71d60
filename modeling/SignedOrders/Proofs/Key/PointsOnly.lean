import Mathlib.NumberTheory.LegendreSymbol.Basic
import SignedOrders.Proofs.Key
import SignedOrders.Proofs.Points
import SignedOrders.Proofs.Secp256k1.Prime

/-!
# Keys that are no points

A public key is to be converted only if it is an encoding of a point of the chain's curve.  Keys are
told by the length and the first octet of their encoding, and their coordinates are not looked at.
So there are **strays**: coordinates that are too large or off the curve, and compressed
encodings whose first coordinate has no second one of the marked parity, because the cubic has no
root there.

A key that is neither a point nor a stray is refused, and the strays are converted as if they were
points.  So a conversion is for points only just for the keys that are no strays
(`Key.pointsOnly_iff`).
-/

namespace SignedOrders

open Octets Secp256k1

/-! ## Compressed points -/

namespace Curve

variable {curve : Curve} {mark : UInt8} {x y : ℕ} {octets : Octets}

instance (curve : Curve) : NeZero curve.modulus :=
  ⟨by cases curve <;> decide⟩

theorem modulus_odd (curve : Curve) : curve.modulus % 2 = 1 := by
  cases curve <;> decide

/-- The cubic has a root at `x`, and where an odd coordinate is marked, one besides zero. -/
def HasRoot (curve : Curve) (mark : UInt8) (x : ℕ) : Prop :=
  ∃ r : ZMod curve.modulus, r * r = curve.cubic x ∧ (mark = 0x03 → r ≠ 0)

theorem HasPoint.hasRoot (h : curve.HasPoint x y) : curve.HasRoot (parityOctet y) x := by
  refine ⟨y, ?_, fun odd zero => ?_⟩
  · rw [← Nat.cast_mul, ZMod.natCast_eq_natCast_iff']
    exact h.equation
  · rw [parityOctet_eq_three_iff] at odd
    have := Nat.eq_zero_of_dvd_of_lt ((ZMod.natCast_eq_zero_iff ..).1 zero) h.second_lt
    omega

/-- **Of a root and its opposite one has the marked parity.** -/
theorem HasRoot.exists_point (parity : mark = 0x02 ∨ mark = 0x03) (first_lt : x < curve.modulus)
    (h : curve.HasRoot mark x) : ∃ y, curve.HasPoint x y ∧ parityOctet y = mark := by
  obtain ⟨r, root, nonzero⟩ := h
  have odd := curve.modulus_odd
  have point (s : ZMod curve.modulus) (square : s * s = curve.cubic x) :
      curve.HasPoint x s.val := by
    refine ⟨first_lt, s.val_lt, ?_⟩
    rw [← ZMod.natCast_eq_natCast_iff', Nat.cast_mul, ZMod.natCast_zmod_val, square]
  by_cases here : parityOctet r.val = mark
  · exact ⟨r.val, point r root, here⟩
  · have vanishes : r ≠ 0 := by
      rintro rfl
      rcases parity with rfl | rfl
      · exact here (by rw [ZMod.val_zero]; rfl)
      · exact nonzero rfl rfl
    have : NeZero r := ⟨vanishes⟩
    have opposite : (-r).val = curve.modulus - r.val := ZMod.val_neg_of_ne_zero r
    have bound := r.val_lt
    refine ⟨(-r).val, point (-r) (by rw [neg_mul_neg, root]), ?_⟩
    unfold parityOctet at here ⊢
    rw [opposite]
    rcases parity with rfl | rfl
    · rw [if_neg]
      intro
      exact here (if_neg (by omega))
    · rw [if_pos]
      by_contra
      exact here (if_pos (by omega))

/-! ## Strays -/

/-- The octets are an encoding of a point of the curve. -/
def EncodesPoint (curve : Curve) (octets : Octets) : Prop :=
  ∃ x y, curve.HasPoint x y ∧ octets ∈ curve.encodings x y

/-- The octets have the shape of an encoding, but are not that of a point. -/
inductive Stray (curve : Curve) : Octets → Prop
  | compressed {mark : UInt8} {x : ℕ} : mark = 0x02 ∨ mark = 0x03 → x < capacity 32 →
      curve.modulus ≤ x ∨ ¬curve.HasRoot mark x → Stray curve (mark :: Octets.ofNat .big 32 x)
  | marked {x y : ℕ} : x < capacity 32 → y < capacity 32 → ¬curve.HasPoint x y →
      Stray curve (0x04 :: pair x y)
  | bare {x y : ℕ} : curve = .secp256k1 → x < capacity 32 → y < capacity 32 →
      ¬curve.HasPoint x y → Stray curve (pair x y)

/-- The octets have the length and the first octet of an encoding. -/
def Shaped (curve : Curve) (octets : Octets) : Prop :=
  (octets.length = 33 ∧ (octets.head? = some 0x02 ∨ octets.head? = some 0x03)) ∨
    (octets.length = 65 ∧ octets.head? = some 0x04) ∨
    (curve = .secp256k1 ∧ octets.length = 64)

theorem mem_encodings_iff : octets ∈ curve.encodings x y ↔
    octets = compress x y ∨ octets = 0x04 :: pair x y ∨
      (curve = .secp256k1 ∧ octets = pair x y) := by
  cases curve <;> simp [encodings]

theorem EncodesPoint.shaped (h : curve.EncodesPoint octets) : curve.Shaped octets := by
  obtain ⟨x, y, -, mem⟩ := h
  rcases mem_encodings_iff.1 mem with rfl | rfl | ⟨k1, rfl⟩
  · exact .inl ⟨length_compress x y, by simpa [compress] using parityOctet_cases y⟩
  · exact .inr (.inl ⟨by simp, rfl⟩)
  · exact .inr (.inr ⟨k1, length_pair x y⟩)

theorem Stray.shaped (h : curve.Stray octets) : curve.Shaped octets := by
  cases h with
  | compressed parity => exact .inl ⟨by simp, by simpa using parity⟩
  | marked => exact .inr (.inl ⟨by simp, rfl⟩)
  | bare k1 => exact .inr (.inr ⟨k1, length_pair ..⟩)

/-- **What has the shape of an encoding is that of a point, or a stray.** -/
theorem Shaped.cases (h : curve.Shaped octets) :
    curve.EncodesPoint octets ∨ curve.Stray octets := by
  rcases h with ⟨length, head⟩ | ⟨length, head⟩ | ⟨k1, length⟩
  · obtain ⟨mark, rest, rfl⟩ := List.exists_cons_of_length_eq_add_one length
    obtain ⟨x, hx, rfl⟩ := exists_ofNat (Nat.succ_injective length)
    have parity : mark = 0x02 ∨ mark = 0x03 := by simpa using head
    by_cases good : x < curve.modulus ∧ curve.HasRoot mark x
    · obtain ⟨y, point, rfl⟩ := good.2.exists_point parity good.1
      exact .inl ⟨x, y, point, mem_encodings_iff.2 (.inl rfl)⟩
    · rw [not_and_or, not_lt] at good
      exact .inr (.compressed parity hx good)
  · obtain ⟨mark, rest, rfl⟩ := List.exists_cons_of_length_eq_add_one length
    obtain ⟨x, hx, y, hy, rfl⟩ := exists_pair (Nat.succ_injective length)
    obtain rfl : mark = 0x04 := by simpa using head
    by_cases point : curve.HasPoint x y
    · exact .inl ⟨x, y, point, mem_encodings_iff.2 (.inr (.inl rfl))⟩
    · exact .inr (.marked hx hy point)
  · obtain ⟨x, hx, y, hy, rfl⟩ := exists_pair length
    by_cases point : curve.HasPoint x y
    · exact .inl ⟨x, y, point, mem_encodings_iff.2 (.inr (.inr ⟨k1, rfl⟩))⟩
    · exact .inr (.bare k1 hx hy point)

/-- **A stray is no point.** -/
theorem Stray.not_encodesPoint (h : curve.Stray octets) : ¬curve.EncodesPoint octets := by
  rintro ⟨u, v, point, mem⟩
  have hu := lt_capacity_of_lt_modulus point.first_lt
  have hv := lt_capacity_of_lt_modulus point.second_lt
  rw [mem_encodings_iff] at mem
  -- encodings of different kinds differ in their lengths
  cases h with
  | compressed parity hx bad =>
    rcases mem with same | same | ⟨-, same⟩
    · obtain ⟨rfl, rest⟩ := List.cons_eq_cons.1 same
      obtain rfl := ofNat_inj .big hx hu rest
      exact bad.elim point.first_lt.not_ge fun none => none point.hasRoot
    · exact absurd (congrArg List.length same) (by simp)
    · exact absurd (congrArg List.length same) (by simp)
  | marked hx hy off =>
    rcases mem with same | same | ⟨-, same⟩
    · exact absurd (congrArg List.length same) (by simp)
    · obtain ⟨rfl, rfl⟩ := pair_inj hx hy hu hv (List.cons_eq_cons.1 same).2
      exact off point
    · exact absurd (congrArg List.length same) (by simp)
  | bare k1 hx hy off =>
    rcases mem with same | same | ⟨-, same⟩
    · exact absurd (congrArg List.length same) (by simp)
    · exact absurd (congrArg List.length same) (by simp)
    · obtain ⟨rfl, rfl⟩ := pair_inj hx hy hu hv same
      exact off point

end Curve

/-! ## Conversion -/

namespace Key

variable {key : Key} {octets : Octets} {α : Type}

theorem coordinates_eq_ok_iff :
    (∃ pair, coordinates octets = .ok pair) ↔ Curve.secp256k1.Shaped octets := by
  unfold coordinates Curve.Shaped
  split
  · next length =>
    obtain ⟨mark, rest, rfl⟩ := List.exists_cons_of_length_eq_add_one length
    simp only [orFail_eq_ok, decompress?, length]
    split <;> simp_all
  · next length =>
    split
    · next marked => simp [marked]
    · next marked =>
      split
      · next bare => simp [bare]
      · next bare => simp_all [fail]

/-- **Which keys have an account**: those on secp256k1 whose octets have the right shape. -/
theorem account_eq_ok_iff : (∃ account, key.account = .ok account) ↔
    key.curve = .secp256k1 ∧
      ∃ octets, ofMarkedHex? key.hex = some octets ∧ Curve.secp256k1.Shaped octets := by
  unfold account
  split
  · next other => simp [fail, other]
  · next same =>
    rw [not_not] at same
    simp only [same, true_and, bind_eq_ok, Key.octets, orFail_eq_ok, ← coordinates_eq_ok_iff]
    constructor
    · rintro ⟨account, octets, read, pair, converted, -⟩
      exact ⟨octets, read, pair, converted⟩
    · rintro ⟨octets, read, pair, converted⟩
      exact ⟨_, octets, read, pair, converted, rfl⟩

/-- **Which keys are converted for NEO**: those on secp256r1 whose octets have the right shape. -/
theorem neo_eq_ok_iff : (∃ compressed, key.neo = .ok compressed) ↔
    key.curve = .secp256r1 ∧
      ∃ octets, ofMarkedHex? key.hex = some octets ∧ Curve.secp256r1.Shaped octets := by
  unfold neo Curve.Shaped
  split
  · next other => simp [fail, other]
  · next same =>
    rw [not_not] at same
    simp only [same, true_and, bind_eq_ok, Key.octets, orFail_eq_ok, reduceCtorEq, false_and,
      or_false]
    constructor
    · rintro ⟨compressed, octets, read, h⟩
      refine ⟨octets, read, ?_⟩
      split at h
      · next short => exact .inl short
      split at h
      · next long => exact .inr long
      · cases h
    · rintro ⟨octets, read, short | long⟩
      · exact ⟨_, octets, read, if_pos short⟩
      · exact ⟨_, octets, read, (if_neg (by simp [long.1])).trans (if_pos long)⟩

/-- The key is on the curve, and its octets are an encoding of a point. -/
def IsPoint (key : Key) (curve : Curve) : Prop :=
  key.curve = curve ∧ ∃ octets, ofMarkedHex? key.hex = some octets ∧ curve.EncodesPoint octets

/-- The key is on the curve, and its octets are a stray. -/
def IsStray (key : Key) (curve : Curve) : Prop :=
  key.curve = curve ∧ ∃ octets, ofMarkedHex? key.hex = some octets ∧ curve.Stray octets

/-- **The ideal for a conversion**: it succeeds for the points of the curve, and refuses all other
keys. -/
structure PointsOnly (key : Key) (curve : Curve) (outcome : Except Failure α) : Prop where
  accepts : key.IsPoint curve → ∃ a, outcome = .ok a
  refuses : ¬key.IsPoint curve → ∃ e, outcome = .error e ∧ e.RefusesKey

/-- What conversions do: they succeed for points and for strays, and fail only by refusing the
key. -/
structure Converts (key : Key) (curve : Curve) (outcome : Except Failure α) : Prop where
  succeeds_iff : (∃ a, outcome = .ok a) ↔ key.IsPoint curve ∨ key.IsStray curve
  refuses : ∀ e, outcome = .error e → e.RefusesKey

variable {curve : Curve} {outcome : Except Failure α}

theorem IsStray.not_isPoint (h : key.IsStray curve) : ¬key.IsPoint curve := by
  obtain ⟨-, octets, read, stray⟩ := h
  rintro ⟨-, octets', read', point⟩
  cases read.symm.trans read'
  exact stray.not_encodesPoint point

/-- Keys of the right shape are points or strays. -/
theorem isPoint_or_isStray_iff : key.IsPoint curve ∨ key.IsStray curve ↔
    key.curve = curve ∧ ∃ octets, ofMarkedHex? key.hex = some octets ∧ curve.Shaped octets := by
  constructor
  · rintro (⟨same, octets, read, point⟩ | ⟨same, octets, read, stray⟩)
    · exact ⟨same, octets, read, point.shaped⟩
    · exact ⟨same, octets, read, stray.shaped⟩
  · rintro ⟨same, octets, read, shaped⟩
    exact shaped.cases.imp (fun point => ⟨same, octets, read, point⟩)
      fun stray => ⟨same, octets, read, stray⟩

/-- **Strays are all that is amiss.** -/
theorem Converts.pointsOnly_iff_not_isStray (h : key.Converts curve outcome) :
    key.PointsOnly curve outcome ↔ ¬key.IsStray curve := by
  constructor
  · intro only stray
    obtain ⟨a, converted⟩ := h.succeeds_iff.2 (.inr stray)
    obtain ⟨e, refused, -⟩ := only.refuses stray.not_isPoint
    cases converted.symm.trans refused
  · refine fun unstray => ⟨fun point => h.succeeds_iff.2 (.inl point), fun off => ?_⟩
    cases hout : outcome with
    | ok a => exact ((h.succeeds_iff.1 ⟨a, hout⟩).elim off unstray).elim
    | error e => exact ⟨e, rfl, h.refuses e hout⟩

theorem Converts.map {β : Type} {f : α → β} (h : key.Converts curve outcome) :
    key.Converts curve (outcome.map f) := by
  refine ⟨?_, fun e failed => h.refuses e (map_eq_error.1 failed)⟩
  rw [← h.succeeds_iff]
  constructor
  · rintro ⟨b, mapped⟩
    obtain ⟨a, converted, -⟩ := map_eq_ok.1 mapped
    exact ⟨a, converted⟩
  · rintro ⟨a, converted⟩
    exact ⟨f a, map_eq_ok.2 ⟨a, converted, rfl⟩⟩

theorem converts_account (key : Key) : key.Converts .secp256k1 key.account :=
  ⟨account_eq_ok_iff.trans isPoint_or_isStray_iff.symm, fun _ => account_error⟩

theorem converts_neo (key : Key) : key.Converts .secp256r1 key.neo :=
  ⟨neo_eq_ok_iff.trans isPoint_or_isStray_iff.symm, fun _ => neo_error⟩

/-- **Conversions are for points only just where there are no strays.**  A key that is neither a
point of the chain's curve nor a stray is refused, and by no other failure than the refusal of a
key; points and strays are converted; and the same holds for the fill orders that are made of the
key. -/
theorem pointsOnly_iff (key : Key) :
    (key.Converts .secp256k1 key.address ∧
        (key.PointsOnly .secp256k1 key.address ↔ ¬key.IsStray .secp256k1)) ∧
      (key.Converts .secp256r1 key.neo ∧
        (key.PointsOnly .secp256r1 key.neo ↔ ¬key.IsStray .secp256r1)) ∧
      ∀ (source : Amount) (destination : Asset) (nonces : Combination),
        (key.Converts .secp256k1 (FillOrder.make .ethereum source destination key nonces) ∧
          (key.PointsOnly .secp256k1 (FillOrder.make .ethereum source destination key nonces) ↔
            ¬key.IsStray .secp256k1)) ∧
        (key.Converts .secp256r1 (FillOrder.make .neo source destination key nonces) ∧
          (key.PointsOnly .secp256r1 (FillOrder.make .neo source destination key nonces) ↔
            ¬key.IsStray .secp256r1)) := by
  have all {α : Type} {curve : Curve} {outcome : Except Failure α}
      (h : key.Converts curve outcome) :
      key.Converts curve outcome ∧ (key.PointsOnly curve outcome ↔ ¬key.IsStray curve) :=
    ⟨h, h.pointsOnly_iff_not_isStray⟩
  exact ⟨all key.converts_account.map, all key.converts_neo, fun _ _ _ =>
    ⟨all key.converts_account.map, all key.converts_neo.map⟩⟩

/-! ## Some strays -/

/-- Five is not the first coordinate of a point of secp256k1. -/
theorem not_hasRoot_five (mark : UInt8) : ¬Curve.secp256k1.HasRoot mark 5 := by
  have : Fact Secp256k1.prime.Prime := ⟨prime_isPrime⟩
  rintro ⟨r, root, -⟩
  have square : IsSquare ((132 : ℕ) : ZMod Secp256k1.prime) := ⟨r, root.symm⟩
  have nonzero : ((132 : ℕ) : ZMod Secp256k1.prime) ≠ 0 := by
    rw [Ne, ZMod.natCast_eq_zero_iff]
    decide
  have power := (ZMod.euler_criterion Secp256k1.prime nonzero).1 square
  rw [natCast_pow_eq_one_iff (by decide)] at power
  revert power
  decide +kernel

/-- A compressed key on secp256k1 at a first coordinate that no point has. -/
def strayFive : Key :=
  ⟨.secp256k1, "020000000000000000000000000000000000000000000000000000000000000005"⟩

/-- A compressed key on secp256r1 whose first coordinate is no residue. -/
def strayLarge : Key :=
  ⟨.secp256r1, "02ffffffffffffffffffffffffffffffffffffffffffffffffffffffffffffffff"⟩

/-- **Some strays are converted**: a compressed key at a coordinate without a point has an account,
and one with too large a coordinate is taken for a key on NEO. -/
theorem exists_stray :
    (∃ text, strayFive.address = .ok text) ∧ ¬strayFive.IsPoint .secp256k1 ∧
      strayLarge.neo = .ok (0x02 :: List.replicate 32 0xff) ∧ ¬strayLarge.IsPoint .secp256r1 := by
  have five : strayFive.IsStray .secp256k1 := by
    refine ⟨rfl, 0x02 :: Octets.ofNat .big 32 5, by decide +kernel, ?_⟩
    exact .compressed (.inl rfl) (by decide) (.inr (not_hasRoot_five _))
  have large : strayLarge.IsStray .secp256r1 := by
    refine ⟨rfl, 0x02 :: Octets.ofNat .big 32 (capacity 32 - 1), by decide +kernel, ?_⟩
    exact .compressed (.inl rfl) (by decide) (.inl (by decide))
  exact ⟨strayFive.converts_account.map.succeeds_iff.2 (.inr five), five.not_isPoint,
    by decide +kernel, large.not_isPoint⟩

end Key

end SignedOrders
