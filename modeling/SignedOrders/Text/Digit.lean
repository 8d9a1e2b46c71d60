/-!
# Decimal digits

Every script with a positional decimal system has its ten digits in one run of
code points, zero first.  `digitValue?` reads a digit of any of them, and
`asciiDigit` replaces it by the ASCII digit of the same value.
-/

namespace SignedOrders.Text

/-- The code points of the zeros. -/
def zeros : List Nat :=
  [48, 1632, 1776, 1984, 2406, 2534, 2662, 2790, 2918, 3046, 3174, 3302, 3430, 3558, 3664,
    3792, 3872, 4160, 4240, 6112, 6160, 6470, 6608, 6784, 6800, 6992, 7088, 7232, 7248, 42528,
    43216, 43264, 43472, 43504, 43600, 44016, 65296, 66720, 68912, 69734, 69872, 69942, 70096,
    70384, 70736, 70864, 71248, 71360, 71472, 71904, 72016, 72784, 73040, 73120, 92768, 92864,
    93008, 120782, 120792, 120802, 120812, 120822, 123200, 123632, 125264, 130032]

/-- The value of a decimal digit, in whatever script it is written. -/
def digitValue? (c : Char) : Option Nat :=
  (zeros.find? fun first => first ≤ c.toNat && c.toNat < first + 10).map (c.toNat - ·)

/-- The ASCII digit of value `n`, for `n < 10`. -/
def digitChar (n : Nat) : Char := Char.ofNat (48 + n)

/-- `c`, or its ASCII counterpart when it is a digit of another script. -/
def asciiDigit (c : Char) : Char :=
  match digitValue? c with
  | some n => digitChar n
  | none => c

/-- The number written by the ASCII digits `s`; other characters do not occur. -/
def digitsValue (s : List Char) : Nat :=
  s.foldl (fun n c => 10 * n + (c.toNat - 48)) 0

end SignedOrders.Text
