import SignedOrders.Hash.Sha256

/-!
# HMAC with SHA-256

The keyed hash of RFC 2104 over SHA-256, for keys of at most one block.
-/

namespace SignedOrders.Hash

/-- The authentication code of `message` under a key of at most sixty-four
octets. -/
def hmacSha256 (key message : Octets) : Octets :=
  let block := key ++ List.replicate (64 - key.length) 0
  Sha256.digest (block.map (· ^^^ 0x5c) ++ Sha256.digest (block.map (· ^^^ 0x36) ++ message))

@[simp] theorem length_hmacSha256 (key message : Octets) :
    (hmacSha256 key message).length = 32 := by
  simp [hmacSha256]

end SignedOrders.Hash
