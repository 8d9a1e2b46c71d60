/-!
# Curves

The two elliptic curves on which public keys lie.
-/

namespace SignedOrders

/-- The curve of a public key. -/
inductive Curve where
  | secp256k1
  | secp256r1
  deriving DecidableEq, Repr

namespace Curve

/-- The name of the curve. -/
def name : Curve → String
  | secp256k1 => "secp256k1"
  | secp256r1 => "secp256r1"

/-- The curve with a given name. -/
def ofName? (s : String) : Option Curve :=
  [secp256k1, secp256r1].find? fun curve => curve.name == s

end Curve

end SignedOrders
