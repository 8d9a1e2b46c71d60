import SignedOrders.Market
import SignedOrders.Nonce
import SignedOrders.Payload
import SignedOrders.Price

/-!
# Limit orders

A limit order is a request placed on a market.  Selling spends the amount of the
base asset itself.  Buying spends the **cost**, the product of amount and price cut
to the places of the quote asset, so that never more is spent than the limit
allows.
-/

namespace SignedOrders

/-- A limit order on a market, ready to be signed. -/
structure LimitOrder where
  market : Market
  direction : Direction
  amount : Amount
  price : Price
  source : Amount
  destination : Asset
  policy : Policy
  allowTaker : Bool
  clientOrderId : Option String
  deriving DecidableEq, Repr

namespace LimitOrder

/-- The cost of a quantity at a price, cut to the places of the quote side. -/
def cost (quote : Side) (quantity : Decimal) (price : Price) : Except Failure Decimal := do
  ofArithmetic ((← ofArithmetic (quantity.mul price.value)).quantize (← quote.lastPlace) .down)

/-- The order that a request places on a market. -/
def ofRequest (market : Market) (request : LimitRequest) : Except Failure LimitOrder := do
  let quantity ← market.base.quantity (.figure (.number request.amount))
  let amount : Amount := ⟨market.base.asset, .number quantity, market.base.precision⟩
  let price ← Price.ofGiven (.figure (.number request.price))
  let (source, destination) ←
    match request.direction with
    | .sell => pure (amount, market.quote.asset)
    | .buy => do
      let cost ← cost market.quote quantity price
      pure (← market.quote.amount (.figure (.number cost)), market.base.asset)
  return { market, direction := request.direction, amount, price, source, destination,
           policy := request.policy, allowTaker := request.allowTaker,
           clientOrderId := request.clientOrderId }

/-- The number that stands in fields for nonces that are no longer in use. -/
def retiredNonce : Int := 1234

/-- What is posted for the order at `index` of a batch built at `time`, not signed
yet. -/
def posting (order : LimitOrder) (time index : Int) (affiliate : Option String) :
    Except Failure LimitPosting := do
  let cancelAt ← order.policy.cancelAtText
  let price ← order.price.wireText
  return {
    payload := {
      allowTaker := order.allowTaker
      direction := order.direction
      cancelAt
      policy := order.policy.kind
      clientOrderId := order.clientOrderId
      marketName := order.market.name
      amount := ⟨order.amount.wireText, order.amount.currency⟩
      nonceFrom := retiredNonce
      nonceTo := retiredNonce
      nonceOrder := (Nonce.ofClock time index).encoded
      timestamp := time
      limitPrice := ⟨price, order.market.quote.asset.ticker, order.market.base.asset.ticker⟩
      blockchainSignatures := [] }
    signature := .empty
    affiliate }

end LimitOrder

end SignedOrders
