import SignedOrders.Binary64.Basic
import SignedOrders.Decimal.Printer

/-!
# The shortest decimal text of a binary number

A number is written with the fewest digits that read back as the same number,
and of several such texts with the one nearest to it.  The decimals that read
back form an interval around the number, half-way to its neighbours, whose ends
belong to it when the mantissa is even.  On the grid of decimals with `k` digits
only the two neighbours of the number itself have to be tried.

The text is positional while the first digit is among the first sixteen places
before the point or the first four after it, and then has at least one place
after the point; otherwise it is a digit, the others, and a power of ten of at
least two digits.
-/

namespace SignedOrders.Binary64

/-- The exponent of the first decimal digit of `num / den`, for a positive
ratio. -/
def decimalExponent (num den : Nat) : Int :=
  if num ≥ den then (Decimal.width (num / den) : Int) - 1
  else
    let j := Decimal.width (den / num) - 1
    if num * Decimal.tenTo j = den then -(j : Int) else -(j : Int) - 1

/-- `t * 10 ^ g` lies between `low / den` and `high / den`, ends included when
`closed`. -/
def within (low high den : Nat) (closed : Bool) (t : Nat) (g : Int) : Bool :=
  let (value, den) := if g ≥ 0 then (t * Decimal.tenTo g.toNat * den, 1)
    else (t * den, Decimal.tenTo (-g).toNat)
  if closed then low * den ≤ value && value ≤ high * den
  else low * den < value && value < high * den

/-- The first of the grids with `k`, `k + 1`, … digits, `count` in all, that has a
decimal between `low / den` and `high / den`: the coefficient nearest to
`num / den` and the exponent of the grid. -/
def search (num low high den : Nat) (closed : Bool) (first : Int) (count k : Nat) : Nat × Int :=
  match count with
  | 0 => (0, 0)
  | n + 1 =>
    let g := first - k + 1
    let (a, b) := if g ≥ 0 then (num, den * Decimal.tenTo g.toNat)
      else (num * Decimal.tenTo (-g).toNat, den)
    let t := a / b
    let below := within low high den closed t g
    let above := within low high den closed (t + 1) g
    if below && above then (nearest a b, g)
    else if below then (t, g)
    else if above then (t + 1, g)
    else search num low high den closed first n (k + 1)

/-- The coefficient and the exponent of the shortest decimal of a positive finite
number. -/
def shortest (mantissa : Nat) (exponent : Int) : Nat × Int :=
  let gap := if mantissa = twoTo (mantissaDigits - 1) ∧ exponent > leastExponent then 1 else 2
  -- the number and the ends of its interval in quarters of its last place
  let (num, den) := ratio (4 * mantissa) (exponent - 2)
  let unit := num / (4 * mantissa)
  search num (num - gap * unit) (num + 2 * unit) den (mantissa % 2 = 0)
    (decimalExponent num den) 17 1

/-- The text of the decimal `c * 10 ^ e`, for a positive `c`. -/
def layout (c : Nat) (e : Int) : List Char :=
  let zeros := Decimal.trailingZeros (Decimal.width c) c
  let ds := Decimal.digits (c / Decimal.tenTo zeros)
  let point := e + zeros + ds.length
  if -4 < point ∧ point ≤ 16 then
    if point ≤ 0 then "0.".toList ++ List.replicate (-point).toNat '0' ++ ds
    else if point ≥ ds.length then ds ++ List.replicate (point - ds.length).toNat '0' ++ ".0".toList
    else ds.take point.toNat ++ '.' :: ds.drop point.toNat
  else
    let mantissa :=
      match ds with
      | c :: c' :: cs => c :: '.' :: c' :: cs
      | cs => cs
    let power := Decimal.digits (point - 1).natAbs
    mantissa ++ 'e' :: (if point - 1 < 0 then '-' else '+') ::
      (List.replicate (2 - power.length) '0' ++ power)

/-- The text of a datum, as characters. -/
def chars : Binary64 → List Char
  | .finite negative m e =>
    Decimal.signText negative ++
      if m = 0 then "0.0".toList else let (c, g) := shortest m e; layout c g
  | .infinite negative => Decimal.signText negative ++ "Infinity".toList
  | .nan => "NaN".toList

/-- The text of a datum. -/
def toText (x : Binary64) : String := String.ofList x.chars

end SignedOrders.Binary64
