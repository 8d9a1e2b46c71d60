import SignedOrders.Failure

/-!
# Nonces

A nonce is a number of 32 bits taken from the pool of an asset, or the mark
`crosschain` for an asset that does not settle on the chain in question.  The
mark is encoded by the largest number of 32 bits, which no pool holds.

An order is signed for a **combination** of nonces: one for the asset that is
spent, one for the asset that is received, and one for the order itself, which
is taken from the clock.  From the pools of both assets either all combinations
are made (`Combination.expand`) or the one of the newest nonces
(`Combination.latest`).
-/

namespace SignedOrders

/-- A nonce of an asset on some chain. -/
inductive Nonce where
  | value (n : Int)
  | crosschain
  deriving DecidableEq, Repr

namespace Nonce

/-- The largest number of 32 bits, which encodes the mark `crosschain`. -/
def largest : Nat := 0xffffffff

/-- The largest nonce of a pool. -/
def largestPooled : Nat := largest - 1

/-- The nonce of a given number of 32 bits. -/
def ofInt (n : Int) : Except Failure Nonce :=
  if 0 ≤ n ∧ n ≤ largest then .ok (.value n) else fail (.nonceOutOfRange n)

/-- A number that a pool can hold. -/
def pooled (n : Int) : Except Failure Int :=
  if 0 ≤ n ∧ n ≤ largestPooled then .ok n else fail (.poolNonceOutOfRange largestPooled n)

/-- The number that stands for the nonce in a settlement structure. -/
def encoded : Nonce → Int
  | value n => n
  | crosschain => largest

/-- The number of a nonce that has one. -/
def value? : Nonce → Option Int
  | value n => some n
  | crosschain => none

/-- The nonce in words. -/
def text : Nonce → String
  | value n => toString n
  | crosschain => "Crosschain"

/-- The nonce of `asset` as it stands on `chain`. -/
def onChain (nonce : Nonce) (chain : Chain) (asset : Asset) : Nonce :=
  if asset.chain = chain then nonce else crosschain

/-- The nonce of the order with a given index in a batch built at `time`.  Orders of
one batch have different nonces. -/
def ofClock (time index : Int) : Nonce := .value ((time + index) % 0x100000000)

theorem pooled_eq_ok_iff {n m : Int} :
    pooled n = .ok m ↔ n = m ∧ 0 ≤ n ∧ n ≤ largestPooled := by
  unfold pooled fail
  split <;> grind

theorem ofInt_eq_ok_iff {n : Int} {nonce : Nonce} :
    ofInt n = .ok nonce ↔ nonce = .value n ∧ 0 ≤ n ∧ n ≤ largest := by
  unfold ofInt fail
  split <;> grind

theorem ofClock_encoded_nonneg (time index : Int) : 0 ≤ (ofClock time index).encoded := by
  simp only [ofClock, encoded]; omega

theorem ofClock_encoded_lt (time index : Int) : (ofClock time index).encoded < 0x100000000 := by
  simp only [ofClock, encoded]; omega

end Nonce

/-- The nonces for which an order is signed. -/
structure Combination where
  source : Nonce
  destination : Nonce
  order : Nonce
  deriving DecidableEq, Repr

namespace Combination

/-- The combination of two pooled nonces. -/
def ofPooled (source destination : Int) (order : Nonce) : Except Failure Combination := do
  return ⟨.value (← Nonce.pooled source), .value (← Nonce.pooled destination), order⟩

/-- Every combination of nonces of two pools, the first pool's outermost. -/
def expand (sources destinations : List Int) (order : Nonce) :
    Except Failure (List Combination) :=
  (sources.flatMap fun source => destinations.map fun destination => (source, destination)).mapM
    fun pair => ofPooled pair.1 pair.2 order

/-- The largest nonce of a pool. -/
def newest (pool : List Int) : Except Failure Int := orFail .emptyPool pool.max?

/-- The combination of the newest nonces of two pools. -/
def latest (sources destinations : List Int) (order : Nonce) : Except Failure Combination := do
  let source ← Nonce.pooled (← newest sources)
  let destination ← Nonce.pooled (← newest destinations)
  return ⟨.value source, .value destination, order⟩

end Combination

end SignedOrders
