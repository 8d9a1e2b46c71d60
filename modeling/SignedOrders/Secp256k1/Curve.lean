/-!
# The curve secp256k1

The curve `y² = x³ + 7` over the field of `prime` elements, with a generator of
prime order `order`.  Field elements are their least residues.

Points are computed with in Jacobian coordinates: `⟨x, y, z⟩` stands for the
point `(x / z², y / z³)`, and for the point at infinity when `y = 0`, which no
finite point of the curve has.  `Point.coordinates` returns to the plane.
-/

namespace SignedOrders.Secp256k1

/-- The number of elements of the field. -/
def prime : Nat := 0xfffffffffffffffffffffffffffffffffffffffffffffffffffffffefffffc2f

/-- The order of the generator. -/
def order : Nat := 0xfffffffffffffffffffffffffffffffebaaedce6af48a03bbfd25e8cd0364141

/-- `base ^ exponent` modulo `m`, by repeated squaring. -/
def powMod (m base exponent : Nat) : Nat :=
  if exponent = 0 then 1 % m
  else
    let root := powMod m base (exponent / 2)
    let square := root * root % m
    if exponent % 2 = 1 then square * base % m else square
termination_by exponent

/-- Repeated squaring computes the power. -/
theorem powMod_eq (m base exponent : Nat) : powMod m base exponent = Nat.pow base exponent % m := by
  have pow_add (i j : Nat) : Nat.pow base (i + j) = Nat.pow base i * Nat.pow base j :=
    Nat.pow_add base i j
  have pow_one : Nat.pow base 1 = base := Nat.pow_one base
  have pow_zero : Nat.pow base 0 = 1 := rfl
  induction exponent using Nat.strongRecOn with
  | ind e ih =>
    rw [powMod]
    split
    · next h => rw [h, pow_zero]
    · next h =>
      simp only [ih (e / 2) (by omega)]
      split
      · next odd =>
        have halves : e = e / 2 + e / 2 + 1 := by omega
        have power : Nat.pow base e = Nat.pow base (e / 2) * Nat.pow base (e / 2) * base := by
          conv => lhs; rw [halves, pow_add, pow_add, pow_one]
        rw [power]
        simp [Nat.mul_mod]
      · next even =>
        have halves : e = e / 2 + e / 2 := by omega
        have power : Nat.pow base e = Nat.pow base (e / 2) * Nat.pow base (e / 2) := by
          conv => lhs; rw [halves, pow_add]
        rw [power]
        simp [Nat.mul_mod]

/-- The inverse of `a` modulo a prime `m`, by Fermat's little theorem. -/
def inverse (m a : Nat) : Nat := powMod m a (m - 2)

/-- `a - b` in the field. -/
def sub (a b : Nat) : Nat := (a % prime + (prime - b % prime)) % prime

/-- A point of the curve in Jacobian coordinates. -/
structure Point where
  x : Nat
  y : Nat
  z : Nat
  deriving DecidableEq, Repr

namespace Point

/-- The point at infinity. -/
def infinity : Point := ⟨0, 0, 1⟩

/-- The generator. -/
def generator : Point :=
  ⟨0x79be667ef9dcbbac55a06295ce870b07029bfcdb2dce28d959f2815b16f81798,
    0x483ada7726a3c4655da4fbfc0e1108a8fd17b448a68554199c47d08ffb10d4b8, 1⟩

/-- Twice a point. -/
def double (p : Point) : Point :=
  if p.y = 0 then infinity
  else
    let ySquared := p.y * p.y % prime
    let s := 4 * p.x * ySquared % prime
    let m := 3 * p.x * p.x % prime
    let x := sub (m * m) (2 * s)
    ⟨x, sub (m * sub s x) (8 * ySquared * ySquared), 2 * p.y * p.z % prime⟩

/-- The sum of two points. -/
def add (p q : Point) : Point :=
  if p.y = 0 then q
  else if q.y = 0 then p
  else
    let pz := p.z * p.z % prime
    let qz := q.z * q.z % prime
    let u1 := p.x * qz % prime
    let u2 := q.x * pz % prime
    let s1 := p.y * (qz * q.z % prime) % prime
    let s2 := q.y * (pz * p.z % prime) % prime
    if u1 = u2 then
      if s1 = s2 then double p else infinity
    else
      let h := sub u2 u1
      let r := sub s2 s1
      let h2 := h * h % prime
      let h3 := h2 * h % prime
      let u := u1 * h2 % prime
      let x := sub (r * r) (h3 + 2 * u)
      ⟨x, sub (r * sub u x) (s1 * h3), h * (p.z * q.z % prime) % prime⟩

/-- The multiple `n` of a point, by doubling and adding. -/
def multiple (n : Nat) (p : Point) : Point :=
  if n = 0 then infinity
  else
    let twice := double (multiple (n / 2) p)
    if n % 2 = 1 then add twice p else twice
termination_by n

/-- The coordinates of a finite point. -/
def coordinates (p : Point) : Nat × Nat :=
  let z := inverse prime p.z
  let z2 := z * z % prime
  (p.x * z2 % prime, p.y * (z2 * z % prime) % prime)

end Point

end SignedOrders.Secp256k1
