import SignedOrders.Amount
import SignedOrders.Json.Value
import SignedOrders.Key
import SignedOrders.Nonce
import SignedOrders.Price
import SignedOrders.Hash.Sha256

/-!
# Fill orders

A **fill order** is the structure that settles an order on one chain.  On
Ethereum and NEO it states the account or key, both assets, the nonces, the
amount of the source asset, bounds that leave the rate free, and the order's own
nonce, in fixed positions; on Bitcoin only the two nonces.  A nonce whose asset
settles elsewhere is replaced by the mark `crosschain`.

`encode` writes a fill order in octets and `digest` is what a child key signs.
-/

namespace SignedOrders

/-- What fill orders on Ethereum and NEO state besides the key. -/
structure Terms where
  source : Amount
  destination : Asset
  nonces : Combination
  deriving DecidableEq, Repr

/-- The settlement structure of an order on one chain. -/
inductive FillOrder where
  | ethereum (account : Octets) (terms : Terms)
  | bitcoin (source destination : Nonce)
  | neo (key : Octets) (terms : Terms)
  deriving DecidableEq, Repr

namespace FillOrder

/-- The nonces of a combination as they stand on `chain`. -/
def noncesOn (chain : Chain) (source destination : Asset) (nonces : Combination) : Combination :=
  ⟨nonces.source.onChain chain source, nonces.destination.onChain chain destination, nonces.order⟩

/-- The fill order on `chain` that spends `source` for `destination`. -/
def make (chain : Chain) (source : Amount) (destination : Asset) (key : Key)
    (nonces : Combination) : Except Failure FillOrder :=
  let nonces := noncesOn chain source.asset destination nonces
  match chain with
  | .ethereum => key.account.map fun account => .ethereum account ⟨source, destination, nonces⟩
  | .bitcoin => .ok (.bitcoin nonces.source nonces.destination)
  | .neo => key.neo.map fun key => .neo key ⟨source, destination, nonces⟩

/-- The fill order on the chain of a given code. -/
def makeFor (code : String) (source : Amount) (destination : Asset) (key : Key)
    (nonces : Combination) : Except Failure FillOrder :=
  match Chain.ofCode? code with
  | some chain => make chain source destination key nonces
  | none => fail (.unsupportedChain code)

/-- The chain on which the order settles. -/
def chain : FillOrder → Chain
  | ethereum .. => .ethereum
  | bitcoin .. => .bitcoin
  | neo .. => .neo

/-- The nonce of the source asset. -/
def sourceNonce : FillOrder → Nonce
  | ethereum _ terms => terms.nonces.source
  | bitcoin source _ => source
  | neo _ terms => terms.nonces.source

/-- The nonce of the destination asset. -/
def destinationNonce : FillOrder → Nonce
  | ethereum _ terms => terms.nonces.destination
  | bitcoin _ destination => destination
  | neo _ terms => terms.nonces.destination

/-- A number in a field of `width` octets. -/
def field (order : ByteOrder) (width : Nat) (n : Int) : Except Failure Octets :=
  orFail .outOfRange (Octets.ofInt? order width n)

/-- The octet that opens an account chain's fill order. -/
def version : UInt8 := 0x01

/-- The terms in fixed positions. -/
def encodeTerms (order : ByteOrder) (terms : Terms) : Except Failure Octets := do
  let assets := (← field order 2 terms.source.asset.number) ++
    (← field order 2 terms.destination.number)
  let nonces := (← field order 4 terms.nonces.source.encoded) ++
    (← field order 4 terms.nonces.destination.encoded)
  let amount ← field order 8 (← terms.source.encoded)
  let rates := (← field order 8 RateBound.least.value) ++
    (← field order 8 RateBound.greatest.value) ++ (← field order 8 RateBound.fee.value)
  return assets ++ nonces ++ amount ++ rates ++ (← field order 4 terms.nonces.order.encoded)

/-- The octets of a fill order. -/
def encode : FillOrder → Except Failure Octets
  | ethereum account terms =>
    (encodeTerms .big terms).map fun octets => version :: (account ++ octets)
  | bitcoin source destination => do
    return (← field .big 4 source.encoded) ++ (← field .big 4 destination.encoded)
  | neo key terms => (encodeTerms .little terms).map fun octets => version :: (key ++ octets)

/-- The hash by which the chain of a fill order identifies its octets. -/
def hash : Chain → Octets → Octets
  | .ethereum, octets => Hash.Keccak256.digest octets
  | .bitcoin, octets => Hash.Sha256.digest (Hash.Sha256.digest octets)
  | .neo, octets => Hash.Sha256.digest octets

/-- What a child key signs. -/
def digest (order : FillOrder) : Except Failure Octets := order.encode.map (hash order.chain)

end FillOrder

/-- The signature of a child key: two numbers and a recovery parity. -/
structure ChildSignature where
  r : Int
  s : Int
  v : Int
  deriving DecidableEq, Repr

namespace FillOrder

/-- The text of a signature on `chain`: both numbers in thirty-two octets and, on
Ethereum, the parity counted from twenty-seven. -/
def signatureText (chain : Chain) (signature : ChildSignature) : Except Failure String := do
  let numbers := (← field .big 32 signature.r) ++ (← field .big 32 signature.s)
  match chain with
  | .ethereum =>
    let parity ← orFail .parityOutOfRange (Octets.ofInt? .big 1 (27 + signature.v))
    return Octets.toHex (numbers ++ parity)
  | _ => return Octets.toHex numbers

/-- The name that messages give to the kind of a JSON value. -/
def kindName : Json → String
  | .null => "NoneType"
  | .bool _ => "bool"
  | .int _ => "int"
  | .float _ => "float"
  | .str _ => "str"
  | .arr _ => "list"
  | .obj _ => "dict"
  | .unrepresentable => "object"

/-- A value that is not a fill order has no signature text. -/
def refuse (v : Json) : Failure := .of (.unsupportedFillOrder (kindName v))

/-- The public key that goes with a signature: on NEO the compressed key that the
order states, elsewhere the key as its signer gave it. -/
def publishedKey (order : FillOrder) (key : Key) : String :=
  match order with
  | neo compressed _ => Octets.toHex compressed
  | _ => key.hex

end FillOrder

end SignedOrders
