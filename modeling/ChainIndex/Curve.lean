/-!
# Recovering the signer of a digest

The curve `y ^ 2 = x ^ 3 + 7` over the field of `2 ^ 256 - 2 ^ 32 - 977` elements.
A signature of a digest is a pair `r`, `s` of scalars.  With the parity of the
`y` coordinate of the point behind `r`, the public key that made the signature is
determined, and `recover?` computes it.

Points are kept in projective coordinates `x / z ^ 2`, `y / z ^ 3`, so that only the last
step divides.  The point with `z = 0` is the neutral one.
-/

namespace ChainIndex.Curve

/-- The count of field elements. -/
def fieldOrder : Nat := Nat.pow 2 256 - Nat.pow 2 32 - 977

/-- The count of points. -/
def groupOrder : Nat := 0xfffffffffffffffffffffffffffffffebaaedce6af48a03bbfd25e8cd0364141

/-- `base ^ exponent` modulo `m`, from the bits of the exponent, lowest first. -/
def powMod (m : Nat) : Nat → Nat → Nat → Nat → Nat
  | 0, _, _, acc => acc
  | fuel + 1, base, exponent, acc =>
    if exponent = 0 then acc
    else powMod m fuel (base * base % m) (exponent / 2)
      (if exponent % 2 = 1 then acc * base % m else acc)

/-- The inverse of a number modulo a prime below `2 ^ 256`. -/
def inverse (m a : Nat) : Nat := powMod m 256 (a % m) (m - 2) 1

/-- A square root in the field, where there is one. -/
def squareRoot? (a : Nat) : Option Nat :=
  let root := powMod fieldOrder 256 (a % fieldOrder) ((fieldOrder + 1) / 4) 1
  if root * root % fieldOrder = a % fieldOrder then some root else none

/-- A difference in the field. -/
def sub (a b : Nat) : Nat := (a + (fieldOrder - b % fieldOrder)) % fieldOrder

/-- A point in projective coordinates. -/
structure Point where
  /-- The numerator of the first coordinate. -/
  x : Nat
  /-- The numerator of the second coordinate. -/
  y : Nat
  /-- The denominator; zero for the neutral point. -/
  z : Nat
deriving DecidableEq, Repr

namespace Point

/-- The neutral point. -/
def neutral : Point := ⟨1, 1, 0⟩

/-- The point whose multiples are all points. -/
def generator : Point :=
  ⟨0x79be667ef9dcbbac55a06295ce870b07029bfcdb2dce28d959f2815b16f81798,
   0x483ada7726a3c4655da4fbfc0e1108a8fd17b448a68554199c47d08ffb10d4b8, 1⟩

/-- A point added to itself. -/
def double (p : Point) : Point :=
  if p.z = 0 ∨ p.y = 0 then neutral
  else
    let m := fieldOrder
    let yy := p.y * p.y % m
    let s := 4 * p.x * yy % m
    let slope := 3 * p.x * p.x % m
    let x := sub (slope * slope) (2 * s)
    let y := sub (slope * sub s x) (8 * yy * yy)
    ⟨x, y, 2 * p.y * p.z % m⟩

/-- The sum of two points. -/
def add (p q : Point) : Point :=
  if p.z = 0 then q
  else if q.z = 0 then p
  else
    let m := fieldOrder
    let pz := p.z * p.z % m
    let qz := q.z * q.z % m
    let u1 := p.x * qz % m
    let u2 := q.x * pz % m
    let s1 := p.y * qz * q.z % m
    let s2 := q.y * pz * p.z % m
    if u1 = u2 then (if s1 = s2 then double p else neutral)
    else
      let h := sub u2 u1
      let r := sub s2 s1
      let hh := h * h % m
      let hhh := h * hh % m
      let v := u1 * hh % m
      let x := sub (sub (r * r) hhh) (2 * v)
      let y := sub (r * sub v x) (s1 * hhh)
      ⟨x, y, h * p.z * q.z % m⟩

/-- `scalar` times a point added to `acc`, from the bits of the scalar, lowest first. -/
def addMultiple : Nat → Nat → Point → Point → Point
  | 0, _, _, acc => acc
  | fuel + 1, scalar, p, acc =>
    if scalar = 0 then acc
    else addMultiple fuel (scalar / 2) p.double (if scalar % 2 = 1 then acc.add p else acc)

/-- A multiple of a point. -/
def multiple (scalar : Nat) (p : Point) : Point := addMultiple 256 scalar p neutral

/-- The coordinates of a point other than the neutral one. -/
def coordinates? (p : Point) : Option (Nat × Nat) :=
  if p.z = 0 then none
  else
    let zi := inverse fieldOrder p.z
    let zz := zi * zi % fieldOrder
    some (p.x * zz % fieldOrder, p.y * zz % fieldOrder * zi % fieldOrder)

/-- The point with a first coordinate and a parity of the second. -/
def lift? (x : Nat) (odd : Bool) : Option Point :=
  (squareRoot? (x * x * x + 7)).map fun y =>
    ⟨x, if (y % 2 = 1) = odd then y else fieldOrder - y, 1⟩

end Point

/-- A signature with the parity of the point behind it. -/
structure Signature where
  /-- The first scalar. -/
  r : Nat
  /-- The second scalar. -/
  s : Nat
  /-- The second coordinate of the point behind `r` is odd. -/
  odd : Bool
deriving DecidableEq, Repr

/-- The signature with the lower of the two second scalars that sign the same digest. -/
def Signature.normalize (sig : Signature) : Signature :=
  if groupOrder / 2 < sig.s then ⟨sig.r, groupOrder - sig.s, !sig.odd⟩ else sig

/-- Both scalars lie between one and the count of points. -/
def Signature.inRange (sig : Signature) : Bool :=
  0 < sig.r && sig.r < groupOrder && 0 < sig.s && sig.s < groupOrder

/-- The coordinates of the public key that signed a digest, given as a number. -/
def recover? (digest : Nat) (sig : Signature) : Option (Nat × Nat) := do
  guard sig.inRange
  let sig := sig.normalize
  let point ← Point.lift? sig.r sig.odd
  let inv := inverse groupOrder sig.r
  let z := digest % groupOrder
  let u := (groupOrder - z) * inv % groupOrder
  let v := sig.s * inv % groupOrder
  ((Point.generator.multiple u).add (point.multiple v)).coordinates?

end ChainIndex.Curve
