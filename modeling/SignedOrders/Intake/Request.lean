import SignedOrders.Intake.Scalar
import SignedOrders.Request
import SignedOrders.Text.Lowercase

/-!
# Checks of order requests

A request is an object with the fields below; fields beyond them do not count.
The name of the market has at least three characters as it is given, and is then
trimmed and put into lowercase.
-/

namespace SignedOrders.Intake

/-- The least number of characters in the name of a market. -/
def shortestMarketName : Nat := 3

/-- The name of a market. -/
def marketName (v : Json) : Checked String :=
  (text v).andThen fun s =>
    if s.length < shortestMarketName then refuse .textTooShort
    else .accepted (String.ofList (Text.lowercase (Text.trim s.toList)))

/-- A cancellation policy. -/
def policy : Json → Checked Policy :=
  object fun fields =>
    (Policy.mk <$> optional fields "kind" .goodTilCancelled (named PolicyKind.ofName?)
      <*> optional fields "cancel_at" none (nullable reading)).andThen fun policy =>
        match policy.brokenRule? with
        | some message => refuse (.broken message)
        | none => .accepted policy

/-- A request for a limit order. -/
def limitRequest : Json → Checked LimitRequest :=
  object fun fields =>
    LimitRequest.mk <$> required fields "market" marketName
      <*> required fields "buy_or_sell" (named Direction.ofName?)
      <*> required fields "amount" decimal
      <*> required fields "price" positiveDecimal
      <*> optional fields "cancellation_policy" .standard policy
      <*> optional fields "allow_taker" true flag
      <*> optional fields "client_order_id" none (nullable text)

/-- A request for a market order. -/
def marketRequest : Json → Checked MarketRequest :=
  object fun fields =>
    MarketRequest.mk <$> required fields "market" marketName
      <*> required fields "amount" decimal
      <*> optional fields "client_order_id" none (nullable text)

end SignedOrders.Intake
