import SignedOrders.Octets

/-!
# Keccak-256

The sponge of the Keccak submission with a capacity of 512 bits and its own
padding, which account chains use for addresses and digests.  The state is a
five by five array of lanes, kept as the list of its twenty-five lanes with
`lane x y` at position `5 y + x`; a round of the permutation is the composition
of five layers.
-/

namespace SignedOrders.Hash.Keccak256

/-- Twenty-five lanes. -/
abbrev State := Array UInt64

/-- The lane in column `x` and row `y`, both taken modulo five. -/
def lane (s : State) (x y : Nat) : UInt64 := s.getD (5 * (y % 5) + x % 5) 0

/-- The state whose lane in column `x` and row `y` is `f x y`. -/
def tabulate (f : Nat → Nat → UInt64) : State :=
  Array.ofFn fun i : Fin 25 => f (i.val % 5) (i.val / 5)

/-- `x` rotated to the left by `n` bits, for `n < 64`. -/
def rotateLeft (x : UInt64) (n : Nat) : UInt64 :=
  if n = 0 then x else (x <<< UInt64.ofNat n) ||| (x >>> UInt64.ofNat (64 - n))

/-- The rotation of each lane, row by row. -/
def offsets : Array Nat :=
  #[0, 1, 62, 28, 27, 36, 44, 6, 55, 20, 3, 10, 43, 25, 39, 41, 45, 15, 21, 8, 18, 2, 61, 56, 14]

/-- The constants of the twenty-four rounds. -/
def roundConstants : List UInt64 :=
  [0x0000000000000001, 0x0000000000008082, 0x800000000000808a, 0x8000000080008000,
    0x000000000000808b, 0x0000000080000001, 0x8000000080008081, 0x8000000000008009,
    0x000000000000008a, 0x0000000000000088, 0x0000000080008009, 0x000000008000000a,
    0x000000008000808b, 0x800000000000008b, 0x8000000000008089, 0x8000000000008003,
    0x8000000000008002, 0x8000000000000080, 0x000000000000800a, 0x800000008000000a,
    0x8000000080008081, 0x8000000000008080, 0x0000000080000001, 0x8000000080008008]

/-- The parity of column `x`. -/
def parity (s : State) (x : Nat) : UInt64 :=
  lane s x 0 ^^^ lane s x 1 ^^^ lane s x 2 ^^^ lane s x 3 ^^^ lane s x 4

/-- Adds to each lane the parities of two neighbouring columns. -/
def theta (s : State) : State :=
  let parities := Array.ofFn fun x : Fin 5 => parity s x.val
  let column (x : Nat) : UInt64 := parities.getD (x % 5) 0
  tabulate fun x y => lane s x y ^^^ column (x + 4) ^^^ rotateLeft (column (x + 1)) 1

/-- Rotates each lane by its offset. -/
def rho (s : State) : State :=
  tabulate fun x y => rotateLeft (lane s x y) (offsets.getD (5 * y + x) 0)

/-- Moves the lanes to new positions. -/
def pi (s : State) : State := tabulate fun x y => lane s (x + 3 * y) x

/-- Combines each lane with the next two of its row. -/
def chi (s : State) : State :=
  tabulate fun x y => lane s x y ^^^ (~~~lane s (x + 1) y &&& lane s (x + 2) y)

/-- Adds the round's constant to the first lane. -/
def iota (constant : UInt64) (s : State) : State :=
  tabulate fun x y => if x = 0 ∧ y = 0 then lane s x y ^^^ constant else lane s x y

/-- One round of the permutation. -/
def round (s : State) (constant : UInt64) : State := iota constant (chi (pi (rho (theta s))))

/-- The permutation of the state. -/
def permute (s : State) : State := roundConstants.foldl round s

/-- The number of octets that one application of the permutation takes in. -/
def rate : Nat := 136

/-- The octets that complete a message of `length` octets to whole blocks: a first
and a last set bit with zeros between them. -/
def padding (length : Nat) : Octets :=
  let n := rate - length % rate
  if n = 1 then [0x81] else 0x01 :: (List.replicate (n - 2) 0 ++ [0x80])

/-- The state after a block of octets is taken in. -/
def takeIn (s : State) (block : Octets) : State :=
  let word (i : Nat) : UInt64 :=
    if i < rate / 8 then UInt64.ofNat (Octets.toNat .little ((block.drop (8 * i)).take 8)) else 0
  permute (tabulate fun x y => lane s x y ^^^ word (5 * y + x))

/-- The digest of a message: thirty-two octets. -/
def digest (message : Octets) : Octets :=
  let blocks := Octets.blocks rate (message ++ padding message.length)
  let s := blocks.foldl takeIn (tabulate fun _ _ => 0)
  (List.range 4).flatMap fun i => Octets.ofNat .little 8 (lane s i 0).toNat

@[simp] theorem length_digest (message : Octets) : (digest message).length = 32 := by
  simp only [digest, List.length_flatMap, Octets.length_ofNat]
  rfl

end SignedOrders.Hash.Keccak256
