import SignedOrders.Hash.Hmac
import SignedOrders.Secp256k1.PublicKey

/-!
# Signatures on secp256k1

A private key is a scalar between one and the order of the curve.  A signature
of a digest is the pair `r`, `s` of ECDSA with the deterministic nonce of
RFC 6979, where `s` is taken in the lower half of its range, together with the
parity `v` by which the public key can be recovered.
-/

namespace SignedOrders.Secp256k1

/-- A signature with its recovery parity. -/
structure Signature where
  r : Nat
  s : Nat
  v : Nat
  deriving DecidableEq, Repr

/-- A private key: a scalar that is neither zero nor too large. -/
structure PrivateKey where
  scalar : Nat
  pos : 0 < scalar
  lt_order : scalar < order

namespace PrivateKey

/-- The private key that thirty-two octets write. -/
def ofOctets? (octets : Octets) : Option PrivateKey :=
  if octets.length = 32 then
    let n := Octets.toNat .big octets
    if h : 0 < n ∧ n < order then some ⟨n, h.1, h.2⟩ else none
  else none

/-- The coordinates of the public key. -/
def publicPoint (key : PrivateKey) : Nat × Nat :=
  (Point.multiple key.scalar Point.generator).coordinates

/-- The compressed public key. -/
def compressedPublicKey (key : PrivateKey) : Octets :=
  compress key.publicPoint.1 key.publicPoint.2

/-- The nonce of RFC 6979 for a digest of residue `z`: the first candidate. -/
def nonce (key : PrivateKey) (z : Nat) : Nat :=
  let tail := Octets.ofNat .big 32 key.scalar ++ Octets.ofNat .big 32 z
  let v := List.replicate 32 0x01
  let k := Hash.hmacSha256 (List.replicate 32 0x00) (v ++ 0x00 :: tail)
  let v := Hash.hmacSha256 k v
  let k := Hash.hmacSha256 k (v ++ 0x01 :: tail)
  let v := Hash.hmacSha256 k v
  Octets.toNat .big (Hash.hmacSha256 k v)

/-- The signature of a digest. -/
def sign (key : PrivateKey) (digest : Octets) : Signature :=
  let z := Octets.toNat .big digest % order
  let k := key.nonce z
  let (r, y) := (Point.multiple k Point.generator).coordinates
  let s := inverse order k * (z + r * key.scalar) % order
  if 2 * s < order then ⟨r, s, y % 2⟩ else ⟨r, order - s, 1 - y % 2⟩

end PrivateKey

end SignedOrders.Secp256k1
