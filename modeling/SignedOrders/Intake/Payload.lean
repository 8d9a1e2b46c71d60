import SignedOrders.Intake.Scalar
import SignedOrders.Payload

/-!
# Checks of payloads

A payload is read back from JSON under either naming, field by field; where a
field is given under both names, the one of the wire counts.  An issue with a
field names it as it was given, and a missing field by its name on the wire.
-/

namespace SignedOrders.Intake

/-- The name under which the field `name` is given. -/
def givenKey? (fields : Json.Fields) (name : String) : Option String :=
  let wire := Naming.wire.key name
  if (Json.Fields.get? fields wire).isSome then some wire
  else if (Json.Fields.get? fields name).isSome then some name
  else none

/-- A field under either naming, which has to be there. -/
def member (fields : Json.Fields) (name : String) (check : Json → Checked α) : Checked α :=
  required fields ((givenKey? fields name).getD (Naming.wire.key name)) check

/-- A field under either naming, or `default` where it is missing. -/
def memberOr (fields : Json.Fields) (name : String) (default : α) (check : Json → Checked α) :
    Checked α :=
  optional fields ((givenKey? fields name).getD (Naming.wire.key name)) default check

/-- A quantity of a currency. -/
def currencyAmount : Json → Checked CurrencyAmount :=
  object fun fields =>
    CurrencyAmount.mk <$> member fields "amount" text <*> member fields "currency" text

/-- A price. -/
def currencyPrice : Json → Checked CurrencyPrice :=
  object fun fields =>
    CurrencyPrice.mk <$> member fields "amount" text <*> member fields "currency_a" text
      <*> member fields "currency_b" text

/-- The signature of a fill order. -/
def blockchainSignature : Json → Checked BlockchainSignature :=
  object fun fields =>
    BlockchainSignature.mk <$> member fields "blockchain" text
      <*> memberOr fields "nonce_from" none (nullable integer)
      <*> memberOr fields "nonce_to" none (nullable integer)
      <*> member fields "public_key" text
      <*> member fields "signature" text

/-- The signature of a request. -/
def requestSignature : Json → Checked RequestSignature :=
  object fun fields =>
    RequestSignature.mk <$> member fields "signed_digest" text <*> member fields "public_key" text

/-- The payload of a limit order. -/
def limitPayload : Json → Checked LimitPayload :=
  object fun fields =>
    LimitPayload.mk <$> member fields "allow_taker" flag
      <*> member fields "buy_or_sell" (named Direction.ofName?)
      <*> memberOr fields "cancel_at" none (nullable text)
      <*> member fields "cancellation_policy" (named PolicyKind.ofName?)
      <*> memberOr fields "client_order_id" none (nullable text)
      <*> member fields "market_name" text
      <*> member fields "amount" currencyAmount
      <*> member fields "nonce_from" integer
      <*> member fields "nonce_to" integer
      <*> member fields "nonce_order" integer
      <*> member fields "timestamp" integer
      <*> member fields "limit_price" currencyPrice
      <*> memberOr fields signaturesField [] (list blockchainSignature)

/-- The payload of a market order. -/
def marketPayload : Json → Checked MarketPayload :=
  object fun fields =>
    MarketPayload.mk <$> member fields "buy_or_sell" (named Direction.ofName?)
      <*> memberOr fields "client_order_id" none (nullable text)
      <*> member fields "market_name" text
      <*> member fields "amount" currencyAmount
      <*> memberOr fields "nonce_from" none (nullable integer)
      <*> memberOr fields "nonce_to" none (nullable integer)
      <*> member fields "nonce_order" integer
      <*> member fields "timestamp" integer
      <*> memberOr fields signaturesField [] (list blockchainSignature)

/-- What is posted for an order, with the given check of its payload. -/
def posting (payload : Json → Checked π) : Json → Checked (Posting π) :=
  object fun fields =>
    Posting.mk <$> member fields "payload" payload
      <*> memberOr fields "signature" .empty requestSignature
      <*> memberOr fields "affiliate" none (nullable text)

/-- What is posted for a limit order. -/
def limitPosting : Json → Checked LimitPosting := posting limitPayload

/-- What is posted for a market order. -/
def marketPosting : Json → Checked MarketPosting := posting marketPayload

end SignedOrders.Intake
