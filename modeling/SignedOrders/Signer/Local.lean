import SignedOrders.Secp256k1.Signature
import SignedOrders.Signer.Basic

/-!
# A signer with keys of its own

A local signer holds private keys on secp256k1: one for the account and one for
each of some chains.  It holds them as texts.  A signer is made only of texts that
write keys that can be used, and a text is read again for each signature and for each
public key that is computed.  Signing needs workers, which are started and shut down;
public keys are available at any time and remembered once they have been computed.

`perform` is the signer as a machine with a call at each step.
-/

namespace SignedOrders

/-- A signer that holds its keys, each as the hexadecimal text that writes it. -/
structure LocalSigner where
  payloadKey : Option String
  childKeys : List (Chain × String)
  maxWorkers : Int
  started : Bool
  /-- Public keys computed so far. -/
  remembered : List (Chain × Key)

namespace LocalSigner

open Secp256k1

/-- The private key that a hexadecimal text writes. -/
def readKey (hex : String) : Except Failure PrivateKey := do
  let octets ← orFail .notHex (Octets.ofMarkedHex? hex)
  orFail .unusableKey (PrivateKey.ofOctets? octets)

/-- The text of an owner's key, if it is not empty.  It has to write a key that can be
used. -/
def provision (hex owner : String) (stage : Stage) : Except Failure (Option String) :=
  if hex = "" then .ok none
  else
    match readKey hex with
    | .ok _ => .ok (some hex)
    | .error _ =>
      .error ((Failure.of (.signingUnavailable
        (owner ++ " is not a valid secp256k1 private key"))).during stage)

/-- The child keys that are not empty, in the order given. -/
def provisionChildren : List (Chain × String) → Except Failure (List (Chain × String))
  | [] => .ok []
  | (chain, hex) :: rest => do
    let key ← provision hex (chain.code ++ " child key") .blockchainSigning
    let keys ← provisionChildren rest
    return (key.map fun key => (chain, key)).toList ++ keys

/-- The signer with the given keys, not started. -/
def ofKeys (payloadKey : String) (childKeys : List (Chain × String)) (maxWorkers : Int) :
    Except Failure LocalSigner := do
  return {
    payloadKey := ← provision payloadKey "Payload signing key" .canonicalSigning
    childKeys := ← provisionChildren childKeys
    maxWorkers
    started := false
    remembered := [] }

/-- The chains with a key, sorted by code. -/
def chains (signer : LocalSigner) : List Chain :=
  (signer.childKeys.map (·.1)).mergeSort fun a b => decide (a.code ≤ b.code)

/-- The text of the private key of a chain. -/
def childKey (signer : LocalSigner) (chain : Chain) : Except Failure String :=
  orFail (.signingUnavailable ("No child key provisioned for " ++ chain.code))
    ((signer.childKeys.find? fun entry => entry.1 == chain).map (·.2))

/-- The compressed public key of the private key that a text writes. -/
def compressedKey (hex : String) : Except Failure String :=
  (readKey hex).map fun key => Octets.toHex key.compressedPublicKey

/-- The public key of a chain. -/
def publicKey (signer : LocalSigner) (chain : Chain) : Except Failure Key := do
  return ⟨.secp256k1, ← compressedKey (← signer.childKey chain)⟩

/-- The signature of a digest with the key that a text writes, once there are workers. -/
def signWith (signer : LocalSigner) (hex : String) (digest : Octets) :
    Except Failure Secp256k1.Signature :=
  if signer.started then (readKey hex).map fun key => key.sign digest
  else fail .signerNotStarted

/-- A signature of a digest, as it is given out. -/
def childSignature (signature : Secp256k1.Signature) : ChildSignature :=
  ⟨signature.r, signature.s, signature.v⟩

/-- A signature of a text, as it is given out with the public key. -/
def requestSignature (signature : Secp256k1.Signature) (publicKey : String) : RequestSignature where
  signedDigest :=
    Octets.toHex (Octets.ofNat .big 32 signature.r ++ Octets.ofNat .big 32 signature.s)
  publicKey

/-- The signature of a digest with the key of a chain. -/
def signDigest (signer : LocalSigner) (chain : Chain) (digest : Octets) :
    Except Failure ChildSignature := do
  return childSignature (← signer.signWith (← signer.childKey chain) digest)

/-- The signature of the text of a request. -/
def signText (signer : LocalSigner) (canonical : String) : Except Failure RequestSignature :=
  match signer.payloadKey with
  | none =>
    .error ((Failure.of (.signingUnavailable "Payload signing key is not provisioned")).during
      .canonicalSigning)
  | some hex => do
    let signature ← signer.signWith hex (Hash.Sha256.digest canonical.toUTF8.toList)
    return requestSignature signature (← compressedKey hex)

/-- The turns that an answer of the workers takes: one to hand the result over, and
one to go on with it. -/
def workerTurns : Nat := 2

/-- A call is passed on to the workers. -/
def reachesWorkers (signer : LocalSigner) : SignerCall → Bool
  | .publicKey _ => false
  | .digest chain _ => signer.started && signer.childKeys.any fun entry => entry.1 == chain
  | .text _ => signer.started && signer.payloadKey.isSome

/-- The answers of the signer as it is. -/
def signer (s : LocalSigner) : Signer where
  kind := .held
  answer
    | .publicKey chain => s.publicKey chain
    | .digest chain octets => s.signDigest chain octets
    | .text canonical => s.signText canonical
  turns call := if s.reachesWorkers call then workerTurns else 0

/-! ## As a machine -/

/-- What can be done with a signer. -/
inductive Call where
  | start
  | shutdown
  /-- Starts a scope in which the signer is started. -/
  | enter
  /-- Ends such a scope. -/
  | exit
  | ask (call : SignerCall)

/-- What a call gives. -/
inductive Reply where
  | done
  | entered
  | key (key : Key)
  | signature (signature : ChildSignature)
  | request (signature : RequestSignature)

/-- The signer with workers. -/
def start (signer : LocalSigner) : Except Failure LocalSigner :=
  if signer.started then .ok signer
  else if signer.maxWorkers ≤ 0 then fail .noWorkers
  else .ok { signer with started := true }

/-- The answer to a call, as a reply. -/
def replyOf : (call : SignerCall) → call.Answer → Reply
  | .publicKey _, key => .key key
  | .digest .., signature => .signature signature
  | .text _, signature => .request signature

/-- The public key of a chain, remembered from then on. -/
def rememberKey (signer : LocalSigner) (chain : Chain) : LocalSigner × Except Failure Reply :=
  match signer.remembered.find? fun entry => entry.1 == chain with
  | some (_, key) => (signer, .ok (.key key))
  | none =>
    match signer.publicKey chain with
    | .ok key =>
      ({ signer with remembered := (chain, key) :: signer.remembered }, .ok (.key key))
    | .error failure => (signer, .error failure)

/-- The signer after a call, and what the call gives.  A failing call leaves the
signer as it is. -/
def perform (s : LocalSigner) : Call → LocalSigner × Except Failure Reply
  | .start =>
    match s.start with
    | .ok s => (s, .ok .done)
    | .error failure => (s, .error failure)
  | .enter =>
    match s.start with
    | .ok s => (s, .ok .entered)
    | .error failure => (s, .error failure)
  | .shutdown | .exit => ({ s with started := false }, .ok .done)
  | .ask (.publicKey chain) => s.rememberKey chain
  | .ask call => (s, (s.signer.answer call).map (replyOf call))

end LocalSigner

end SignedOrders
