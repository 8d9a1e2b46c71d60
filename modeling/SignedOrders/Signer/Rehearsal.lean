import SignedOrders.Signer.Basic

/-!
# A signer for rehearsals

A rehearsal builds orders without real keys.  Its signer answers with hashes of
what it is asked, so that two runs agree and different questions have different
answers; it can be told to lack some of the keys.
-/

namespace SignedOrders

/-- What the signer of a rehearsal pretends to have. -/
structure Rehearsal where
  /-- The chains without a key. -/
  missing : List Chain
  hasPayloadKey : Bool
  /-- Public keys other than the standard ones. -/
  keys : List (Chain × Key)

namespace Rehearsal

/-- The public key of a chain for which none is given. -/
def standardKey : Chain → Key
  | .neo => ⟨.secp256r1, Octets.toHex (0x02 :: List.replicate 32 0x5a)⟩
  | _ => ⟨.secp256k1, "034f355bdcb7cc0af728ef3cceb9615d90684bb5b2ca5f859ab0f0b704075871aa"⟩

/-- The public key of a chain. -/
def keyOf (rehearsal : Rehearsal) (chain : Chain) : Key :=
  ((rehearsal.keys.find? fun entry => entry.1 == chain).map (·.2)).getD (standardKey chain)

/-- The given answer, unless the key of the chain is missing. -/
def unlessMissing (rehearsal : Rehearsal) (chain : Chain) (answer : α) : Except Failure α :=
  if rehearsal.missing.contains chain then
    fail (.signingUnavailable ("No child key for " ++ chain.code))
  else .ok answer

/-- The octets of a text. -/
def octetsOf (s : String) : Octets := s.toUTF8.toList

/-- A signature made up of hashes. -/
def signatureOf (chain : Chain) (digest : Octets) : ChildSignature :=
  let r := Hash.Sha256.digest (octetsOf chain.code ++ digest)
  { r := Octets.toNat .big r
    s := Octets.toNat .big (Hash.Sha256.digest r)
    v := ((r.headD 0).toNat % 2 : Nat) }

/-- The signer of a rehearsal. -/
def signer (rehearsal : Rehearsal) : Signer where
  kind := .rehearsal
  answer
    | .publicKey chain => rehearsal.unlessMissing chain (rehearsal.keyOf chain)
    | .digest chain octets => rehearsal.unlessMissing chain (signatureOf chain octets)
    | .text canonical =>
      if rehearsal.hasPayloadKey then
        .ok ⟨Octets.toHex (Hash.Sha256.digest (octetsOf canonical)),
          Octets.toHex (0x03 :: List.replicate 32 0xab)⟩
      else fail (.signingUnavailable "No payload key")
  turns _ := 0

end Rehearsal

end SignedOrders
