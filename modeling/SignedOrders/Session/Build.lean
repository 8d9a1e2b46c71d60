import SignedOrders.Canonical
import SignedOrders.Session.State
import SignedOrders.Tasks.Plan

/-!
# Building signed requests

A build resolves markets, takes nonces from the pools, and has the signer sign a
fill order for each chain and each combination of nonces and then the text of the
request.  It reads the session under the shared lock, a little at a time, and asks
the signer without any lock.  It changes nothing but the list of signed requests, so
that a build that fails leaves no trace.
-/

namespace SignedOrders.Session

open Tasks

/-- The questions that a session's tasks ask: calls of signers. -/
def signing : Interface where
  Question := Signer × SignerCall
  Answer question := Except Failure question.2.Answer

/-- The world of a session's tasks: signers answer of themselves. -/
def world : World signing where
  answer question := question.1.answer question.2
  turns question := question.1.turns question.2

/-- What a task of a session does to give an `α`. -/
abbrev Action (α : Type) := Plan signing Session Failure α

/-- How a session builds requests: the affiliate they name, and the separator of the
names in a market's name. -/
structure Service where
  affiliate : Option String
  separator : String
  deriving DecidableEq, Repr

namespace Build

/-- A computation that may fail. -/
def attempt (r : Except Failure α) : Action α := Plan.ofExcept r

/-- A call of a signer. -/
def call (signer : Signer) (call : SignerCall) : Action call.Answer :=
  .ask none (signer, call) fun answer => attempt answer

/-- The market that a name stands for. -/
def resolve (service : Service) (name : String) : Action Market :=
  Plan.read fun s => s.catalog.resolve service.separator name

/-- The pools of the assets that an order spends and receives, at one moment. -/
def pools (source destination : Asset) : Action (List Int × List Int) :=
  Plan.read fun s => do return (← s.pool source.ticker, ← s.pool destination.ticker)

/-- The signer of the session. -/
def signer : Action Signer := Plan.read Session.getSigner

/-- The signature of the fill order of one chain and one combination. -/
def fillSignature (signer : Signer) (chain : Chain) (key : Key) (source : Amount)
    (destination : Asset) (c : Combination) : Action BlockchainSignature := do
  let order ← attempt (FillOrder.make chain source destination key c)
  let digest ← attempt order.digest
  let signature ← call signer (.digest order.chain digest)
  attempt (Signer.attest order key signature)

/-- The signatures of the fill orders of one chain. -/
def chainSignatures (signer : Signer) (source : Amount) (destination : Asset)
    (combinations : List Combination) (chain : Chain) : Action (List BlockchainSignature) := do
  let key ← call signer (.publicKey chain)
  Plan.collect (fillSignature signer chain key source destination) combinations

/-- The signatures of the fill orders of a market's chains, chain by chain. -/
def signatures (signer : Signer) (market : Market) (source : Amount) (destination : Asset)
    (combinations : List Combination) : Action (List BlockchainSignature) := do
  let lists ← Plan.collect (chainSignatures signer source destination combinations) market.chains
  return lists.flatten

/-- The signature of the text of a request.  A refusal belongs to this stage. -/
def textSignature (signer : Signer) (text : String) : Action RequestSignature :=
  .ask none (signer, .text text) fun answer =>
    attempt (answer.mapError (Failure.during .canonicalSigning))

/-- A posting with the signatures of its fill orders and of its text, and the text. -/
def signed [Payload π] (signer : Signer) (v : Posting π) (signatures : List BlockchainSignature) :
    Action (Posting π × String) := do
  let v := { v with payload := Payload.withSignatures v.payload signatures }
  let text ← attempt (Canonical.ofPosting .standard (Payload.operation π) v [])
  return ({ v with signature := ← textSignature signer text }, text)

/-! ## Limit orders -/

/-- A limit order with everything that signing it gives. -/
structure SignedLimit where
  posting : LimitPosting
  combination : Combination
  text : SignerKind × String

/-- The order that a request places on the market that it names. -/
def limitOrder (service : Service) (request : LimitRequest) : Action LimitOrder := do
  let market ← resolve service request.market
  attempt (LimitOrder.ofRequest market request)

/-- The order at `index` of a batch built at `time`, signed for the newest nonces. -/
def signLimit (service : Service) (time : Int) (index : Nat) (order : LimitOrder) :
    Action SignedLimit := do
  let v ← attempt (order.posting time index service.affiliate)
  let (sources, destinations) ← pools order.source.asset order.destination
  let c ← attempt (Combination.latest sources destinations (Nonce.ofClock time index))
  let signer ← signer
  let signatures ← signatures signer order.market order.source order.destination [c]
  let (v, text) ← signed signer v signatures
  return ⟨v, c, (signer.kind, text)⟩

/-- A batch of limit orders, in the order of the requests. -/
def limits (service : Service) (time : Int) (requests : List LimitRequest) :
    Action SignedRequest := do
  if requests.isEmpty then Plan.throw (.of .noRequests)
  else
    let orders ← Plan.collect (limitOrder service) requests
    let signed ←
      Plan.collect (fun (order, index) => signLimit service time index order) orders.zipIdx
    let body ← attempt (Mutation.ofLimitOrders (signed.map (·.posting)))
    return {
      body
      placement := .limits orders
      combinations := signed.map (·.combination)
      texts := signed.map (·.text)
      committed := false }

/-! ## Market orders -/

/-- A market order, signed for every combination of nonces. -/
def market (service : Service) (time : Int) (request : MarketRequest) : Action SignedRequest := do
  let market ← resolve service request.market
  let order ← attempt (MarketOrder.ofRequest market request)
  let (sources, destinations) ← pools order.source.asset order.destination
  let combinations ←
    attempt (Combination.expand sources destinations (Nonce.ofClock time 0))
  let signer ← signer
  let signatures ← signatures signer order.market order.source order.destination combinations
  let (v, text) ← signed signer (order.posting time service.affiliate) signatures
  return {
    body := Mutation.ofMarketOrder v
    placement := .market order
    combinations
    texts := [(signer.kind, text)]
    committed := false }

end Build

end SignedOrders.Session
