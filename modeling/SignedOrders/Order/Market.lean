import SignedOrders.Amount
import SignedOrders.Nonce
import SignedOrders.Payload

/-!
# Market orders

A market order sells an amount of the base asset of a market at the best price.
-/

namespace SignedOrders

/-- A market order, ready to be signed. -/
structure MarketOrder where
  market : Market
  amount : Amount
  clientOrderId : Option String
  deriving DecidableEq, Repr

namespace MarketOrder

/-- The order that a request places on a market. -/
def ofRequest (market : Market) (request : MarketRequest) : Except Failure MarketOrder :=
  (market.base.amount (.figure (.number request.amount))).map fun amount =>
    { market, amount, clientOrderId := request.clientOrderId }

/-- What the order spends. -/
def source (order : MarketOrder) : Amount := order.amount

/-- What the order receives. -/
def destination (order : MarketOrder) : Asset := order.market.quote.asset

/-- What is posted for an order built at `time`, not signed yet. -/
def posting (order : MarketOrder) (time : Int) (affiliate : Option String) : MarketPosting where
  payload := {
    direction := .sell
    clientOrderId := order.clientOrderId
    marketName := order.market.name
    amount := ⟨order.amount.wireText, order.amount.currency⟩
    nonceFrom := some 0
    nonceTo := some 0
    nonceOrder := (Nonce.ofClock time 0).encoded
    timestamp := time
    blockchainSignatures := [] }
  signature := .empty
  affiliate

end MarketOrder

end SignedOrders
