import SignedOrders.Asset
import SignedOrders.Curve
import SignedOrders.Decimal.Printer
import SignedOrders.Decimal.Rounding
import SignedOrders.Intake.Issue
import SignedOrders.Text.Quoted

/-!
# Failures

Everything that can go wrong on the way from a request to a signed order is a
`Cause`.  Most causes belong to a **stage** of the construction, so that a caller
can tell whether to try another market, to fetch fresh nonces, or to give up;
`Failure` pairs a cause with its stage.  A signer's refusal can occur in two
stages, and `Failure.during` moves a staged failure to the stage that was
running.

Messages are made from causes in one place, `Cause.message?`.  Causes without a
message are known by their kind alone.
-/

namespace SignedOrders

/-- The stages of the construction of a signed order. -/
inductive Stage where
  | marketResolution
  | nonceResolution
  | blockchainSigning
  | canonicalSigning
  deriving DecidableEq, Repr

/-- The name of a stage. -/
def Stage.name : Stage → String
  | marketResolution => "MARKET_RESOLUTION"
  | nonceResolution => "NONCE_RESOLUTION"
  | blockchainSigning => "BLOCKCHAIN_SIGNING"
  | canonicalSigning => "CANONICAL_SIGNING"

/-- A quantity as it was given: written out, or already read. -/
inductive Given where
  | text (s : String)
  | figure (f : Figure)
  deriving DecidableEq, Repr

/-- The quantity as a message shows it. -/
def Given.quoted : Given → String
  | text s => Text.quoted s
  | figure f => "Decimal('" ++ f.toText ++ "')"

/-- What can go wrong. -/
inductive Cause where
  /-- Neither the name nor its reversal is a market. -/
  | unknownMarket (name : String)
  | amountNotDecimal (given : Given)
  | amountNotFinite (given : Given)
  | amountNegative (given : Given)
  /-- More places than the asset is traded with. -/
  | amountTooFine (given : Given) (asset : Asset) (precision : Int)
  /-- More places than an encoded amount has. -/
  | amountBelowEncoding (given : Given) (places : Nat)
  /-- Too large for an encoded amount. -/
  | amountTooLarge (given : Given)
  | priceNotDecimal (given : Given)
  | priceNotPositive (given : Given)
  /-- No nonces are known for an asset. -/
  | noPool (asset : String)
  | nonceOutOfRange (value : Int)
  | poolNonceOutOfRange (largest : Nat) (value : Int)
  | keyNotHex (hex : String)
  | noAddressOnCurve (curve : Curve)
  | keyLength (octets : Nat)
  | keyNotAPoint
  | curveNotForNeo (curve : Curve)
  | keyNotForNeo (octets : Nat)
  | noPayload (operation : String)
  | payloadNotJson (operation : String)
  | notCanonical (operation : String)
  /-- Values stand deeper in one another than calls can. -/
  | nestedTooDeep
  /-- A signer has no key for what it is asked, or there is no signer. -/
  | signingUnavailable (reason : String)
  | noRequests
  | noOrders
  | unsupportedChain (name : String)
  | unsupportedFillOrder (kind : String)
  | signerNotStarted
  /-- Decimal arithmetic has no result. -/
  | arithmetic (signal : Decimal.Signal)
  /-- A figure that is not a number has no integral part. -/
  | notANumber
  /-- A number or an instant does not fit its representation. -/
  | outOfRange
  /-- A recovery parity does not fit an octet. -/
  | parityOutOfRange
  /-- A name stands for nothing that is known. -/
  | unknownName (name : String)
  /-- Nothing of that name reports events. -/
  | unknownReporter (name : String)
  /-- A field of an event has a name that is taken. -/
  | fieldTaken (name : String)
  /-- A field of an event stands in the place of its record. -/
  | foreignRecord
  | notHex
  /-- Names cannot be taken apart without a separator. -/
  | emptySeparator
  /-- The largest element of an empty pool is asked for. -/
  | emptyPool
  /-- Octets are not a private key. -/
  | unusableKey
  /-- The number of workers is not positive. -/
  | noWorkers
  /-- Input is refused. -/
  | invalid (issues : List Intake.Issue)
  deriving DecidableEq, Repr

namespace Cause

/-- The stage to which a cause belongs by itself. -/
def stage? : Cause → Option Stage
  | unknownMarket _ | amountNotDecimal _ | amountNotFinite _ | amountNegative _
  | amountTooFine .. | amountBelowEncoding .. | amountTooLarge _ | priceNotDecimal _
  | priceNotPositive _ => some .marketResolution
  | noPool _ | nonceOutOfRange _ | poolNonceOutOfRange .. => some .nonceResolution
  | keyNotHex _ | noAddressOnCurve _ | keyLength _ | keyNotAPoint | curveNotForNeo _
  | keyNotForNeo _ | signingUnavailable _ => some .blockchainSigning
  | noPayload _ | payloadNotJson _ | notCanonical _ => some .canonicalSigning
  | _ => none

/-- The text of a cause; none for the causes that are known by their kind. -/
def message? : Cause → Option String
  | unknownMarket name => some ("Unknown market: " ++ name)
  | amountNotDecimal given => some ("Amount " ++ given.quoted ++ " is not a decimal number")
  | amountNotFinite given => some ("Amount " ++ given.quoted ++ " is not finite")
  | amountNegative given => some ("Amount " ++ given.quoted ++ " is negative")
  | amountTooFine given asset precision =>
    some ("Amount " ++ given.quoted ++ " exceeds " ++ asset.ticker ++ " precision of " ++
      toString precision)
  | amountBelowEncoding given places =>
    some ("Amount " ++ given.quoted ++ " exceeds the on-chain encoding precision of " ++
      toString places)
  | amountTooLarge given => some ("Amount " ++ given.quoted ++ " overflows the on-chain encoding")
  | priceNotDecimal given => some ("Price " ++ given.quoted ++ " is not a decimal number")
  | priceNotPositive given =>
    some ("Price " ++ given.quoted ++ " must be a positive finite number")
  | noPool asset => some ("No nonce pool registered for asset " ++ asset)
  | nonceOutOfRange value => some ("nonce must fit in u32, got " ++ toString value)
  | poolNonceOutOfRange largest value =>
    some ("pool nonce must be in 0.." ++ toString largest ++ ", got " ++ toString value)
  | keyNotHex hex => some ("Public key is not valid hex: " ++ Text.quoted hex)
  | noAddressOnCurve curve =>
    some ("Cannot derive an Ethereum address from a " ++ curve.name ++ " key")
  | keyLength octets =>
    some ("Unsupported secp256k1 key length: " ++ toString octets ++ " bytes")
  | keyNotAPoint => some "Public key is not a valid secp256k1 point"
  | curveNotForNeo curve => some ("NEO requires a secp256r1 key, got " ++ curve.name)
  | keyNotForNeo octets =>
    some ("Not a secp256r1 public key encoding (" ++ toString octets ++ " bytes)")
  | noPayload operation => some (operation ++ ": variables have no payload object")
  | payloadNotJson operation => some (operation ++ ": payload is not JSON serializable")
  | notCanonical operation =>
    some ("Failed to serialize " ++ operation ++ " into canonical form")
  | signingUnavailable reason => some reason
  | noRequests => some "At least one limit order request is required"
  | noOrders => some "A limit order batch needs at least one order"
  | unsupportedChain name => some ("Unsupported blockchain: " ++ Text.quoted name)
  | unsupportedFillOrder kind => some ("Unsupported fill order: " ++ kind)
  | signerNotStarted => some "LocalSigner not started, call start() first"
  | _ => none

end Cause

/-- A cause and the stage in which it occurred. -/
structure Failure where
  cause : Cause
  stage : Option Stage
  deriving DecidableEq, Repr

namespace Failure

/-- The failure by a cause in the stage to which it belongs. -/
def of (cause : Cause) : Failure := ⟨cause, cause.stage?⟩

/-- A staged failure as one of the stage that was running. -/
def during (stage : Stage) (failure : Failure) : Failure :=
  if failure.stage.isSome then { failure with stage := some stage } else failure

@[simp] theorem cause_during (stage : Stage) (failure : Failure) :
    (failure.during stage).cause = failure.cause := by
  unfold during; split <;> rfl

/-- The failure by an arithmetic signal. -/
def ofSignal (signal : Decimal.Signal) : Failure := of (.arithmetic signal)

end Failure

/-- The failing computation with the given cause. -/
def fail (cause : Cause) : Except Failure α := .error (.of cause)

/-- A result of decimal arithmetic, its signals as failures. -/
def ofArithmetic (r : Except Decimal.Signal α) : Except Failure α := r.mapError Failure.ofSignal

/-- A value that may be missing, with the cause of its absence. -/
def orFail (cause : Cause) : Option α → Except Failure α
  | some a => .ok a
  | none => fail cause

end SignedOrders
