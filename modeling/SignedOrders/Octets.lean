/-!
# Octets

Keys, digests and settlement structures are sequences of octets.  This module
holds their two numeric readings and their text form.

`ofNat order width n` writes the number `n` in `width` octets, the most
significant one first or last, and `toNat order` reads it back: the two are
inverse on the numbers that fit (`toNat_ofNat`), so that numbers that fit and
are written alike are equal (`ofNat_inj`).  `ofInt?` refuses the numbers that do
not fit.

`toHex` writes two lowercase hexadecimal digits for each octet; `ofHex?` reads
pairs of digits of either case with ASCII blanks between the pairs.
-/

namespace SignedOrders

/-- A sequence of octets. -/
abbrev Octets := List UInt8

/-- Which end of a number its octets start with. -/
inductive ByteOrder where
  | big
  | little
  deriving DecidableEq, Repr

namespace Octets

/-! ## Numbers -/

/-- The last `width` octets of `n`, the least significant one first. -/
def littleEndian (width n : Nat) : Octets :=
  match width with
  | 0 => []
  | w + 1 => UInt8.ofNat n :: littleEndian w (n / 256)

/-- The number of values that `width` octets can have. -/
def capacity (width : Nat) : Nat := Nat.pow 256 width

/-- `n` modulo the capacity, in `width` octets. -/
def ofNat (order : ByteOrder) (width n : Nat) : Octets :=
  match order with
  | .little => littleEndian width n
  | .big => (littleEndian width n).reverse

/-- The number that octets write, the least significant one first. -/
def littleEndianValue (octets : Octets) : Nat :=
  octets.foldr (fun b n => b.toNat + 256 * n) 0

/-- The number that octets write. -/
def toNat (order : ByteOrder) (octets : Octets) : Nat :=
  match order with
  | .little => littleEndianValue octets
  | .big => littleEndianValue octets.reverse

/-- `n` in `width` octets, when it is neither negative nor too large for them. -/
def ofInt? (order : ByteOrder) (width : Nat) (n : Int) : Option Octets :=
  if 0 ≤ n ∧ n < capacity width then some (ofNat order width n.toNat) else none

@[simp] theorem length_littleEndian (width n : Nat) : (littleEndian width n).length = width := by
  induction width generalizing n with
  | zero => rfl
  | succ w ih => simp [littleEndian, ih]

@[simp] theorem length_ofNat (order : ByteOrder) (width n : Nat) :
    (ofNat order width n).length = width := by
  cases order <;> simp [ofNat]

theorem littleEndianValue_littleEndian (width n : Nat) :
    littleEndianValue (littleEndian width n) = n % capacity width := by
  induction width generalizing n with
  | zero => simp [littleEndian, littleEndianValue, capacity, Nat.mod_one]
  | succ w ih =>
    have h := ih (n / 256)
    simp only [littleEndianValue] at h
    simp only [littleEndian, littleEndianValue, List.foldr_cons, h, UInt8.toNat_ofNat']
    rw [show capacity (w + 1) = 256 * capacity w from Nat.mul_comm .., Nat.mod_mul]

/-- Writing a number keeps it modulo the capacity. -/
theorem toNat_ofNat_mod (order : ByteOrder) (width n : Nat) :
    toNat order (ofNat order width n) = n % capacity width := by
  cases order <;> simp [ofNat, toNat, littleEndianValue_littleEndian]

/-- **A number that fits is read back.** -/
theorem toNat_ofNat (order : ByteOrder) {width n : Nat} (h : n < capacity width) :
    toNat order (ofNat order width n) = n := by
  rw [toNat_ofNat_mod, Nat.mod_eq_of_lt h]

/-- Numbers that fit and are written alike are equal. -/
theorem ofNat_inj (order : ByteOrder) {width m n : Nat} (hm : m < capacity width)
    (hn : n < capacity width) (h : ofNat order width m = ofNat order width n) : m = n := by
  rw [← toNat_ofNat order hm, h, toNat_ofNat order hn]

/-! ## Blocks -/

/-- `octets` in blocks of `size`; a shorter rest is dropped. -/
def blocks (size : Nat) (octets : Octets) : List Octets :=
  (List.range (octets.length / size)).map fun i => (octets.drop (size * i)).take size

@[simp] theorem length_blocks (size : Nat) (octets : Octets) :
    (blocks size octets).length = octets.length / size := by
  simp [blocks]

/-! ## Hexadecimal text -/

/-- The hexadecimal digit of value `n`, for `n < 16`, in lowercase. -/
def hexDigit (n : Nat) : Char := Nat.digitChar n

/-- The value of a hexadecimal digit of either case. -/
def hexValue? (c : Char) : Option Nat :=
  if '0' ≤ c ∧ c ≤ '9' then some (c.toNat - 48)
  else if 'a' ≤ c ∧ c ≤ 'f' then some (c.toNat - 87)
  else if 'A' ≤ c ∧ c ≤ 'F' then some (c.toNat - 55)
  else none

/-- The characters of the hexadecimal text of `octets`. -/
def hexChars (octets : Octets) : List Char :=
  octets.flatMap fun b => [hexDigit (b.toNat / 16), hexDigit (b.toNat % 16)]

/-- Two lowercase hexadecimal digits for each octet. -/
def toHex (octets : Octets) : String := String.ofList (hexChars octets)

/-- The blanks that may stand between two pairs of hexadecimal digits. -/
def isHexBlank (c : Char) : Bool :=
  c = ' ' || (9 ≤ c.toNat && c.toNat ≤ 13)

/-- The octets that `s` writes as pairs of hexadecimal digits, with blanks before
and after each pair. -/
def ofHexChars? : List Char → Option Octets
  | [] => some []
  | c :: s =>
    if isHexBlank c then ofHexChars? s
    else
      match s with
      | [] => none
      | d :: rest => do
        let high ← hexValue? c
        let low ← hexValue? d
        return UInt8.ofNat (16 * high + low) :: (← ofHexChars? rest)

/-- The octets that a hexadecimal text writes. -/
def ofHex? (s : String) : Option Octets := ofHexChars? s.toList

/-- `s` without the mark `0x` that may open a hexadecimal text. -/
def dropHexMark (s : String) : String :=
  match s.toList with
  | '0' :: 'x' :: rest => String.ofList rest
  | _ => s

/-- The octets that a hexadecimal text writes, with or without the mark `0x`. -/
def ofMarkedHex? (s : String) : Option Octets := ofHex? (dropHexMark s)

end Octets

end SignedOrders
