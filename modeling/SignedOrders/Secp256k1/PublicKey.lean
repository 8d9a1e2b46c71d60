import SignedOrders.Octets
import SignedOrders.Secp256k1.Curve

/-!
# Encodings of a public key on secp256k1

A public key is the pair of its coordinates.  The compressed encoding keeps the
first coordinate and the parity of the second, which is recovered as a square
root in the field; `decompress?` does not ask whether the root exists, so that it
answers for every first coordinate.
-/

namespace SignedOrders.Secp256k1

/-- The octet that opens a compressed key with second coordinate `y`. -/
def parityOctet (y : Nat) : UInt8 := if y % 2 = 1 then 0x03 else 0x02

/-- The compressed encoding: parity, then the first coordinate. -/
def compress (x y : Nat) : Octets := parityOctet y :: Octets.ofNat .big 32 x

/-- The candidate for a square root of `x³ + 7`. -/
def rootAt (x : Nat) : Nat := powMod prime (x * x * x + 7) ((prime + 1) / 4)

/-- The second coordinate of parity `odd` at `x`. -/
def secondCoordinate (odd : Bool) (x : Nat) : Nat :=
  let y := rootAt x
  if (y % 2 == 1) = odd then y else (prime - y) % prime

/-- The sixty-four octets of both coordinates, from a compressed key of
thirty-three octets; none when the first octet is not a parity. -/
def decompress? (key : Octets) : Option Octets :=
  match key with
  | [] => none
  | mark :: first =>
    if mark = 0x02 ∨ mark = 0x03 then
      let x := Octets.toNat .big first
      some (Octets.ofNat .big 32 x ++ Octets.ofNat .big 32 (secondCoordinate (mark = 0x03) x))
    else none

end SignedOrders.Secp256k1
