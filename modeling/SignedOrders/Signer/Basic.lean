import SignedOrders.FillOrder
import SignedOrders.Payload

/-!
# Signers

A signer holds the keys of one account.  It is asked for the public key of a
chain, for the signature of a digest with the key of a chain, and for the
signature of the text of a request with the account's own key; each call has its
own type of answer, and any call may fail.

What is built for an order depends on its signer only through these answers.
-/

namespace SignedOrders

/-- What a signer is asked. -/
inductive SignerCall where
  | publicKey (chain : Chain)
  | digest (chain : Chain) (octets : Octets)
  | text (canonical : String)
  deriving DecidableEq, Repr

/-- The type of the answer to a call. -/
abbrev SignerCall.Answer : SignerCall → Type
  | publicKey _ => Key
  | digest .. => ChildSignature
  | text _ => RequestSignature

/-- Where a signer has its keys. -/
inductive SignerKind where
  /-- It has none and makes its answers up. -/
  | rehearsal
  /-- They are held in the process. -/
  | held
  deriving DecidableEq, Repr

/-- A signer, by its answers. -/
structure Signer where
  kind : SignerKind
  answer : (call : SignerCall) → Except Failure call.Answer
  /-- The number of turns that the answer to a call takes. -/
  turns : SignerCall → Nat

namespace Signer

/-- The signature of a fill order, as payloads carry it, from the signature of its
digest. -/
def attest (order : FillOrder) (key : Key) (signature : ChildSignature) :
    Except Failure BlockchainSignature := do
  return {
    blockchain := order.chain.code
    nonceFrom := some order.sourceNonce.encoded
    nonceTo := some order.destinationNonce.encoded
    publicKey := order.publishedKey key
    signature := ← FillOrder.signatureText order.chain signature }

/-- The signature of a fill order by the key that `signer` has for its chain. -/
def signFillOrder (signer : Signer) (order : FillOrder) (key : Key) :
    Except Failure BlockchainSignature := do
  let digest ← order.digest
  attest order key (← signer.answer (.digest order.chain digest))

end Signer

end SignedOrders
