import SignedOrders.Nonce

/-!
# Nonce pools

Each asset has a pool of nonces that can be signed with.  Pools are installed as a
whole, with every nonce once and in the order first seen.  When a request is
accepted by the exchange, the pools of its assets **advance**: the consumed nonces
are removed, and a pool that is left empty goes on from the successor of the highest
of them.  Advancing checks every asset before it changes any pool, so that it either
changes all or fails.
-/

namespace SignedOrders

/-- Pools by the name of their asset. -/
structure Pools where
  entries : List (String × List Int)
  deriving DecidableEq, Repr

namespace Pools

/-- The items of a list, each once, in the order first seen. -/
def firstSeen [DecidableEq α] : List α → List α
  | [] => []
  | a :: rest => a :: (firstSeen rest).filter (· ≠ a)

theorem mem_firstSeen [DecidableEq α] {a : α} {l : List α} : a ∈ firstSeen l ↔ a ∈ l := by
  induction l with
  | nil => simp [firstSeen]
  | cons b rest ih =>
    by_cases h : a = b <;> simp [firstSeen, h, ih]

theorem nodup_firstSeen [DecidableEq α] (l : List α) : (firstSeen l).Nodup := by
  induction l with
  | nil => simp [firstSeen]
  | cons b rest ih =>
    refine List.nodup_cons.2 ⟨by simp, ?_⟩
    exact List.Pairwise.filter _ ih

/-- The pools given by lists of nonces. -/
def install (given : List (String × List Int)) : Except Failure Pools := do
  let entries ← given.mapM fun entry => do
    return (entry.1, firstSeen (← entry.2.mapM Nonce.pooled))
  return ⟨entries⟩

/-- The pool of an asset. -/
def find? (pools : Pools) (asset : String) : Option (List Int) := pools.entries.lookup asset

/-- The pool of an asset, which has to hold nonces. -/
def get (pools : Pools) (asset : String) : Except Failure (List Int) :=
  match pools.find? asset with
  | some (n :: rest) => .ok (n :: rest)
  | _ => fail (.noPool asset)

/-- The pools with one replaced. -/
def put (pools : Pools) (asset : String) (pool : List Int) : Pools :=
  ⟨pools.entries.map fun entry => if entry.1 == asset then (asset, pool) else entry⟩

/-- A pool without the consumed nonces, or the successor of the highest of them if
none is left. -/
def remaining (pool consumed : List Int) : Except Failure (List Int) :=
  match pool.filter (· ∉ consumed), consumed.max? with
  | [], some highest => (Nonce.pooled (highest + 1)).map fun n => [n]
  | rest, _ => .ok rest

/-- The pools after the consumption of some nonces, each asset's in turn. -/
def consume (pools : Pools) : List (String × List Int) → Except Failure Pools
  | [] => .ok pools
  | (asset, consumed) :: rest => do
    if consumed = [] then consume pools rest
    else
      let pool ← remaining (← pools.get asset) consumed
      consume (pools.put asset pool) rest

/-- The pools after the consumption of some nonces, provided that every asset has a
pool. -/
def advance (pools : Pools) (consumed : List (String × List Int)) : Except Failure Pools := do
  let _ ← consumed.mapM fun entry => pools.get entry.1
  pools.consume consumed

end Pools

end SignedOrders
