import SignedOrders.Failure
import SignedOrders.Payload

/-!
# Mutations

Orders are posted as GraphQL mutations.  A batch of limit orders is one mutation
with a call for each order: order `i` contributes the declarations of three
variables, the call aliased `response i`, and the values bound to the variables.
The text of the mutation depends on the number of orders alone.
-/

namespace SignedOrders

/-- What is posted: the name of the operation, its text, and the values bound to its
variables. -/
structure QueryBody where
  operationName : String
  query : String
  bindings : List (String × Json)

namespace QueryBody

/-- The body as JSON. -/
def toJson (body : QueryBody) : Json :=
  .obj [("operationName", .str body.operationName), ("query", .str body.query),
    ("variables", .obj body.bindings)]

end QueryBody

/-- What one order contributes to the mutation of a batch. -/
structure BatchPart where
  declarations : String
  call : String
  bindings : List (String × Json)

namespace Mutation

/-- The fields that are asked of a placed order. -/
def selection : String :=
  "\x7b\n    id\n    status\n    ordersTillSignState\n    buyOrSell\n    market \x7b\n" ++
    "      name\n    \x7d\n    placedAt\n    type\n  \x7d"

/-- The values of one order under the names of three variables. -/
def bindings [Wire π] (payload signature affiliate : String) (v : Posting π) :
    List (String × Json) :=
  [(payload, toJson .wire v.payload), (signature, toJson .wire v.signature),
    (affiliate, .ofText? v.affiliate)]

/-- The part of the order at `index` in a batch. -/
def limitPart (index : Int) (v : LimitPosting) : BatchPart :=
  let suffix := toString index
  let payload := "payload" ++ suffix
  let signature := "signature" ++ suffix
  let affiliate := "affiliate" ++ suffix
  { declarations :=
      "$" ++ payload ++ ": PlaceLimitOrderParams!, $" ++ signature ++ ": Signature!, $" ++
        affiliate ++ ": AffiliateDeveloperCode"
    call :=
      "  response" ++ suffix ++ ": placeLimitOrder(payload: $" ++ payload ++ ", signature: $" ++
        signature ++ ", affiliateDeveloperCode: $" ++ affiliate ++ ") " ++ selection
    bindings := bindings payload signature affiliate v }

/-- The parts of a batch whose first order is at `index`. -/
def limitPartsFrom (index : Nat) : List LimitPosting → List BatchPart
  | [] => []
  | v :: rest => limitPart index v :: limitPartsFrom (index + 1) rest

/-- The mutation that places a batch of limit orders; an empty batch has none. -/
def ofLimitOrders (orders : List LimitPosting) : Except Failure QueryBody :=
  if orders.isEmpty then fail .noOrders
  else
    let parts := limitPartsFrom 0 orders
    let declarations := String.intercalate ", " (parts.map (·.declarations))
    let calls := String.intercalate "\n" (parts.map (·.call))
    .ok
      { operationName := "PlaceLimitOrder"
        query := "mutation PlaceLimitOrder(" ++ declarations ++ ") \x7b\n" ++ calls ++ "\n\x7d\n"
        bindings := parts.flatMap (·.bindings) }

/-- The text of the mutation that places a market order. -/
def marketQuery : String :=
  "mutation PlaceMarketOrder($payload: PlaceMarketOrderParams!, $signature: Signature!, " ++
    "$affiliate: AffiliateDeveloperCode) \x7b\n  placeMarketOrder(payload: $payload, " ++
    "signature: $signature, affiliateDeveloperCode: $affiliate) " ++ selection ++ "\n\x7d\n"

/-- The mutation that places a market order. -/
def ofMarketOrder (v : MarketPosting) : QueryBody :=
  { operationName := "PlaceMarketOrder"
    query := marketQuery
    bindings := bindings "payload" "signature" "affiliate" v }

end Mutation

end SignedOrders
