/-!
# Shortest decimals

A finite binary number of 64 bits is `m * 2 ^ q`.  Its *shortest decimal* has the
fewest digits among the decimals that round back to it, and is the nearest of
those.  The decimals that round back form an interval around the number, whose
ends belong to it when `m` is even.

`shortest` tries one digit, then two, up to seventeen.  A grid of decimals with
`n` digits has a point in the interval exactly when one of the two neighbours of
the number on that grid lies in it, so two tests per grid decide.  All arithmetic
is on natural numbers.
-/

namespace ChainIndex.Decimal

/-- A finite binary number without its sign: `mantissa * 2 ^ exponent`. -/
structure Binary where
  /-- The integer factor. -/
  mantissa : Nat
  /-- The power of two. -/
  exponent : Int
  /-- The next number below is only half as far away as the next above. -/
  narrowBelow : Bool

/-- The parts of the 64 bits of a finite number. -/
def Binary.ofBits (bits : UInt64) : Binary :=
  let raw := bits.toNat
  let field : Nat := raw / Nat.pow 2 52 % 2048
  let fraction : Nat := raw % Nat.pow 2 52
  if field = 0 then ⟨fraction, -1074, false⟩
  else ⟨Nat.pow 2 52 + fraction, (field : Int) - 1075, fraction = 0 && 1 < field⟩

/-- A number between two halfway points, all three over one denominator. -/
structure Interval where
  /-- The lower halfway point. -/
  lower : Nat
  /-- The number itself. -/
  value : Nat
  /-- The upper halfway point. -/
  upper : Nat
  /-- The common denominator. -/
  denominator : Nat
  /-- The halfway points round back to the number. -/
  closed : Bool

/-- The interval of reals that round to a binary number, in quarters of its last place. -/
def Binary.interval (b : Binary) : Interval :=
  let scale := b.exponent - 2
  let up := Nat.pow 2 scale.toNat
  let lo := if b.narrowBelow then 4 * b.mantissa - 1 else 4 * b.mantissa - 2
  ⟨lo * up, 4 * b.mantissa * up, (4 * b.mantissa + 2) * up, Nat.pow 2 (-scale).toNat,
    b.mantissa % 2 = 0⟩

/-- The fraction `num / den` lies in the interval. -/
def Interval.holds (i : Interval) (num den : Nat) : Bool :=
  if i.closed then i.lower * den ≤ num * i.denominator && num * i.denominator ≤ i.upper * den
  else i.lower * den < num * i.denominator && num * i.denominator < i.upper * den

/-- Zeros between the point and the first digit of a fraction below one. -/
def leadingZeros (num den : Nat) : Nat → Nat
  | 0 => 0
  | fuel + 1 => if 10 * num < den then leadingZeros (10 * num) den fuel + 1 else 0

/-- The least power of ten above `num / den`. -/
def magnitude (num den : Nat) : Int :=
  let whole := num / den
  if 0 < whole then ((Nat.toDigits 10 whole).length : Int)
  else -(leadingZeros num den 400 : Int)

/-- A decimal `digits * 10 ^ exponent`. -/
structure Scaled where
  /-- The digits as a number. -/
  digits : Nat
  /-- The power of ten. -/
  exponent : Int
deriving DecidableEq, Repr

/-- The point of a grid of `count` digits that rounds back to the number, if any. -/
def gridPoint? (i : Interval) (top : Int) (count : Nat) : Option Scaled :=
  let step := top - count
  let up := Nat.pow 10 step.toNat
  let down := Nat.pow 10 (-step).toNat
  let below := i.value * down / (i.denominator * up)
  let above := below + 1
  let hitBelow := i.holds (below * up) down
  let hitAbove := i.holds (above * up) down
  let distanceBelow := i.value * down - below * up * i.denominator
  let distanceAbove := above * up * i.denominator - i.value * down
  if hitBelow && (!hitAbove || distanceBelow < distanceAbove
      || (distanceBelow = distanceAbove && below % 2 = 0)) then some ⟨below, step⟩
  else if hitAbove then some ⟨above, step⟩
  else none

/-- The first grid with a point, from `count` digits on. -/
def firstGrid (i : Interval) (top : Int) (count : Nat) : Nat → Scaled
  | 0 => ⟨0, 0⟩
  | fuel + 1 => (gridPoint? i top count).getD (firstGrid i top (count + 1) fuel)

/-- A decimal without zeros at its end. -/
def Scaled.trim (d : Scaled) : Nat → Scaled
  | 0 => d
  | fuel + 1 =>
    if d.digits ≠ 0 ∧ d.digits % 10 = 0 then Scaled.trim ⟨d.digits / 10, d.exponent + 1⟩ fuel
    else d

/-- The shortest decimal of the absolute value of a finite number. -/
def shortest (bits : UInt64) : Scaled :=
  let b := Binary.ofBits bits
  if b.mantissa = 0 then ⟨0, 0⟩
  else
    let i := b.interval
    (firstGrid i (magnitude i.value i.denominator) 1 18).trim 18

end ChainIndex.Decimal
