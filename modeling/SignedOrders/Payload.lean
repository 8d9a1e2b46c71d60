import SignedOrders.Json.Value
import SignedOrders.Request

/-!
# Payloads

A signed order is posted as a payload with the signature of the request and an
affiliate.  A payload is written as JSON under one of two **namings**: field names
with underscores in the text that is signed, and names with inner capitals on the
wire.  Apart from the names the two are the same, and fields without a value are
left out of both.
-/

namespace SignedOrders

/-- How fields are named. -/
inductive Naming where
  /-- Words joined by underscores. -/
  | canonical
  /-- The words after the first start with a capital. -/
  | wire
  deriving DecidableEq, Repr

namespace Naming

/-- Words joined by underscores as one word with inner capitals. -/
def joinWords : List Char → List Char
  | [] => []
  | '_' :: c :: rest => c.toUpper :: joinWords rest
  | c :: rest => c :: joinWords rest

/-- The name of a field whose words are joined by underscores in `name`. -/
def key (naming : Naming) (name : String) : String :=
  match naming with
  | canonical => name
  | wire => String.ofList (joinWords name.toList)

end Naming

/-- Values that are written as JSON under a naming. -/
class Wire (α : Type) where
  /-- The value as JSON. -/
  toJson : Naming → α → Json

export Wire (toJson)

/-- The object with the given fields, those without a value left out. -/
def record (naming : Naming) (fields : List (String × Option Json)) : Json :=
  .obj (fields.filterMap fun field => field.2.map fun v => (naming.key field.1, v))

/-- A quantity of a currency. -/
structure CurrencyAmount where
  amount : String
  currency : String
  deriving DecidableEq, Repr

/-- A price of one unit of `currencyB` in `currencyA`. -/
structure CurrencyPrice where
  amount : String
  currencyA : String
  currencyB : String
  deriving DecidableEq, Repr

/-- The signature of the fill order of one chain and one combination of nonces. -/
structure BlockchainSignature where
  blockchain : String
  nonceFrom : Option Int
  nonceTo : Option Int
  publicKey : String
  signature : String
  deriving DecidableEq, Repr

/-- The signature of the text of a request. -/
structure RequestSignature where
  signedDigest : String
  publicKey : String
  deriving DecidableEq, Repr

namespace RequestSignature

/-- The signature of a request that is not signed yet. -/
def empty : RequestSignature := ⟨"", ""⟩

end RequestSignature

/-- The payload of a limit order. -/
structure LimitPayload where
  allowTaker : Bool
  direction : Direction
  cancelAt : Option String
  policy : PolicyKind
  clientOrderId : Option String
  marketName : String
  amount : CurrencyAmount
  nonceFrom : Int
  nonceTo : Int
  nonceOrder : Int
  timestamp : Int
  limitPrice : CurrencyPrice
  blockchainSignatures : List BlockchainSignature
  deriving DecidableEq, Repr

/-- The payload of a market order. -/
structure MarketPayload where
  direction : Direction
  clientOrderId : Option String
  marketName : String
  amount : CurrencyAmount
  nonceFrom : Option Int
  nonceTo : Option Int
  nonceOrder : Int
  timestamp : Int
  blockchainSignatures : List BlockchainSignature
  deriving DecidableEq, Repr

/-- What is posted for one order. -/
structure Posting (π : Type) where
  payload : π
  signature : RequestSignature
  affiliate : Option String
  deriving DecidableEq, Repr

/-- What is posted for a limit order. -/
abbrev LimitPosting := Posting LimitPayload

/-- What is posted for a market order. -/
abbrev MarketPosting := Posting MarketPayload

/-! ## As JSON -/

instance : Wire CurrencyAmount where
  toJson naming a :=
    record naming [("amount", some (.str a.amount)), ("currency", some (.str a.currency))]

instance : Wire CurrencyPrice where
  toJson naming p :=
    record naming
      [("amount", some (.str p.amount)), ("currency_a", some (.str p.currencyA)),
        ("currency_b", some (.str p.currencyB))]

instance : Wire BlockchainSignature where
  toJson naming s :=
    record naming
      [("blockchain", some (.str s.blockchain)), ("nonce_from", s.nonceFrom.map Json.int),
        ("nonce_to", s.nonceTo.map Json.int), ("public_key", some (.str s.publicKey)),
        ("signature", some (.str s.signature))]

instance : Wire RequestSignature where
  toJson naming s :=
    record naming
      [("signed_digest", some (.str s.signedDigest)), ("public_key", some (.str s.publicKey))]

/-- The field that holds the signatures of a payload's fill orders. -/
def signaturesField : String := "blockchain_signatures"

/-- The fields of the payload of a limit order. -/
def LimitPayload.fields (naming : Naming) (p : LimitPayload) : List (String × Option Json) :=
  [("allow_taker", some (.bool p.allowTaker)),
    ("buy_or_sell", some (.str p.direction.name)),
    ("cancel_at", p.cancelAt.map Json.str),
    ("cancellation_policy", some (.str p.policy.name)),
    ("client_order_id", p.clientOrderId.map Json.str),
    ("market_name", some (.str p.marketName)),
    ("amount", some (toJson naming p.amount)),
    ("nonce_from", some (.int p.nonceFrom)),
    ("nonce_to", some (.int p.nonceTo)),
    ("nonce_order", some (.int p.nonceOrder)),
    ("timestamp", some (.int p.timestamp)),
    ("limit_price", some (toJson naming p.limitPrice)),
    (signaturesField, some (.arr (p.blockchainSignatures.map (toJson naming))))]

/-- The fields of the payload of a market order. -/
def MarketPayload.fields (naming : Naming) (p : MarketPayload) : List (String × Option Json) :=
  [("buy_or_sell", some (.str p.direction.name)),
    ("client_order_id", p.clientOrderId.map Json.str),
    ("market_name", some (.str p.marketName)),
    ("amount", some (toJson naming p.amount)),
    ("nonce_from", p.nonceFrom.map Json.int),
    ("nonce_to", p.nonceTo.map Json.int),
    ("nonce_order", some (.int p.nonceOrder)),
    ("timestamp", some (.int p.timestamp)),
    (signaturesField, some (.arr (p.blockchainSignatures.map (toJson naming))))]

instance : Wire LimitPayload where
  toJson naming p := record naming (p.fields naming)

instance : Wire MarketPayload where
  toJson naming p := record naming (p.fields naming)

instance [Wire π] : Wire (Posting π) where
  toJson naming v :=
    record naming
      [("payload", some (toJson naming v.payload)), ("signature", some (toJson naming v.signature)),
        ("affiliate", v.affiliate.map Json.str)]

/-- A kind of payload: it takes the signatures of its fill orders, and requests
with it are signed under the name of an operation. -/
class Payload (π : Type) extends Wire π where
  /-- The name of the operation that places such an order. -/
  operation : String
  /-- The payload with the signatures of its fill orders. -/
  withSignatures : π → List BlockchainSignature → π

instance : Payload LimitPayload where
  operation := "place_limit_order"
  withSignatures p signatures := { p with blockchainSignatures := signatures }

instance : Payload MarketPayload where
  operation := "place_market_order"
  withSignatures p signatures := { p with blockchainSignatures := signatures }

end SignedOrders
