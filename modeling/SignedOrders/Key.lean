import SignedOrders.Failure
import SignedOrders.Hash.Keccak256
import SignedOrders.Secp256k1.PublicKey

/-!
# Public keys on the chains

A public key is given in hexadecimal and tagged with its curve.  Each chain needs
a form of its own: an account on Ethereum is the end of the hash of the key's
coordinates, and NEO takes compressed keys on its own curve.

The accepted encodings are told apart by length and first octet.  Coordinates are
not checked against the equation of the curve.
-/

namespace SignedOrders

/-- A public key in hexadecimal, with or without the mark `0x`. -/
structure Key where
  curve : Curve
  hex : String
  deriving DecidableEq, Repr

namespace Key

/-- The octets of the key. -/
def octets (key : Key) : Except Failure Octets :=
  orFail (.keyNotHex key.hex) (Octets.ofMarkedHex? key.hex)

/-- The coordinates of a key on secp256k1, in sixty-four octets: from a compressed
key, a marked pair of coordinates, or the bare pair. -/
def coordinates (octets : Octets) : Except Failure Octets :=
  if octets.length = 33 then orFail .keyNotAPoint (Secp256k1.decompress? octets)
  else if octets.length = 65 ∧ octets.head? = some 0x04 then .ok octets.tail
  else if octets.length = 64 then .ok octets
  else fail (.keyLength octets.length)

/-- The account of a pair of coordinates: the last twenty octets of its hash. -/
def accountOf (coordinates : Octets) : Octets := (Hash.Keccak256.digest coordinates).drop 12

/-- The account on Ethereum that belongs to the key. -/
def account (key : Key) : Except Failure Octets :=
  if key.curve ≠ .secp256k1 then fail (.noAddressOnCurve key.curve)
  else do return accountOf (← coordinates (← key.octets))

/-- The compressed key on NEO. -/
def neo (key : Key) : Except Failure Octets :=
  if key.curve ≠ .secp256r1 then fail (.curveNotForNeo key.curve)
  else do
    let octets ← key.octets
    if octets.length = 33 ∧ (octets.head? = some 0x02 ∨ octets.head? = some 0x03) then
      return octets
    else if octets.length = 65 ∧ octets.head? = some 0x04 then
      let odd := (octets.getLast?.getD 0).toNat % 2
      return (if odd = 1 then 0x03 else 0x02) :: (octets.drop 1).take 32
    else fail (.keyNotForNeo octets.length)

/-- The digit `c` of an address, in uppercase when the digit `check` of its
checksum is at least eight. -/
def checkedDigit (c check : Char) : Char :=
  if (Octets.hexValue? check).any (8 ≤ ·) then c.toUpper else c

/-- The text of an account: marked hexadecimal whose letters carry a checksum in
their case. -/
def addressText (account : Octets) : String :=
  let digits := Octets.hexChars account
  let check := Octets.hexChars (Hash.Keccak256.digest (digits.map fun c => c.toNat.toUInt8))
  "0x" ++ String.ofList (digits.zipWith checkedDigit check)

/-- The text of the account on Ethereum that belongs to the key. -/
def address (key : Key) : Except Failure String := key.account.map addressText

end Key

end SignedOrders
