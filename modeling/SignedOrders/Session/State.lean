import SignedOrders.Catalog
import SignedOrders.Mutation
import SignedOrders.Order.Limit
import SignedOrders.Order.Market
import SignedOrders.Session.Pools
import SignedOrders.Signer.Basic

/-!
# The state of a session

A session of one account knows the catalog of markets, the signer once there is one,
and the nonce pools once they have been fetched.  It also keeps the requests that it
has signed, with whether the exchange's acceptance of them has been **committed**,
that is, whether their nonces have been consumed.
-/

namespace SignedOrders

/-- The orders of a signed request. -/
inductive Placement where
  | limits (orders : List LimitOrder)
  | market (order : MarketOrder)
  deriving DecidableEq, Repr

/-- A request that is signed and can be posted. -/
structure SignedRequest where
  body : QueryBody
  placement : Placement
  /-- The combinations of nonces it is signed for: one for each limit order, or all
  for a market order. -/
  combinations : List Combination
  /-- The texts that were signed, and where their signer has its keys. -/
  texts : List (SignerKind × String)
  committed : Bool

namespace SignedRequest

/-- The combinations with the assets whose nonces they are. -/
def sides (request : SignedRequest) : List (Asset × Asset × Combination) :=
  match request.placement with
  | .limits orders =>
    (orders.zip request.combinations).map fun (order, c) =>
      (order.source.asset, order.destination, c)
  | .market order => request.combinations.map fun c => (order.source.asset, order.destination, c)

/-- The nonces by asset that the settlement of some combinations consumes. -/
def nonces : List (Asset × Asset × Combination) → List (Asset × Int)
  | [] => []
  | (source, destination, c) :: rest =>
    (c.source.value?.map fun n => (source, n)).toList ++
      (c.destination.value?.map fun n => (destination, n)).toList ++ nonces rest

/-- Pairs grouped by their first part, in the order first seen. -/
def grouped (pairs : List (Asset × Int)) : List (String × List Int) :=
  (Pools.firstSeen (pairs.map (·.1))).map fun asset =>
    (asset.ticker, Pools.firstSeen ((pairs.filter (·.1 = asset)).map (·.2)))

/-- The nonces that are consumed when the given combinations settle; all of them, if
none are given. -/
def consumed (request : SignedRequest) (settled : Option (List Combination)) :
    List (String × List Int) :=
  let settles (side : Asset × Asset × Combination) : Bool :=
    match settled with
    | none => true
    | some combinations => combinations.contains side.2.2
  grouped (nonces (request.sides.filter settles))

end SignedRequest

/-- What a session knows. -/
structure Session where
  catalog : Catalog
  signer : Option Signer
  /-- The nonce pools; none until they have been fetched. -/
  pools : Option Pools
  /-- The signed requests, by the number of the task that built them. -/
  requests : List (Nat × SignedRequest)

namespace Session

/-- A session with the given markets, signer and nonces. -/
def new (markets : List Market) (signer : Option Signer)
    (nonces : Option (List (String × List Int))) : Except Failure Session := do
  let pools ← nonces.mapM Pools.install
  return { catalog := .ofList markets, signer, pools, requests := [] }

/-- The pool of an asset. -/
def pool (s : Session) (asset : String) : Except Failure (List Int) :=
  match s.pools with
  | some pools => pools.get asset
  | none => fail (.noPool asset)

/-- The signer, which has to be there. -/
def getSigner (s : Session) : Except Failure Signer :=
  orFail (.signingUnavailable "No signer attached to this session") s.signer

/-- The session after the consumption of some nonces. -/
def advance (s : Session) (consumed : List (String × List Int)) : Except Failure Session :=
  match s.pools with
  | some pools => (pools.advance consumed).map fun pools => { s with pools := some pools }
  | none =>
    match consumed with
    | [] => .ok { s with pools := some ⟨[]⟩ }
    | (asset, _) :: _ => fail (.noPool asset)

/-- The signed request of a task. -/
def request? (s : Session) (id : Nat) : Option SignedRequest := s.requests.lookup id

/-- The session with a new signed request. -/
def enroll (s : Session) (id : Nat) (request : SignedRequest) : Session :=
  { s with requests := s.requests ++ [(id, request)] }

/-- The session with one signed request changed. -/
def revise (s : Session) (id : Nat) (f : SignedRequest → SignedRequest) : Session :=
  { s with requests := s.requests.map fun entry => if entry.1 = id then (id, f entry.2) else entry }

end Session

end SignedOrders
