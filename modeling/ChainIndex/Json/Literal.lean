import ChainIndex.Json.Basic

/-!
# Number literals

A literal is an optional minus sign, digits without a leading zero, an optional
fraction and an optional exponent.

* Digits alone that fit a word of 64 bits, or a signed word behind a minus sign,
  are an integer.  The literal `-0` is the floating point number `-0.0`.
* Every other literal is a floating point number.  Its leading digits, as many as
  fit an unsigned word, are converted, then multiplied or divided once by a power
  of ten.  A value past the largest finite number is out of range.
-/

namespace ChainIndex.Literal

/-- Why a literal has no value. -/
inductive Fault where
  /-- The text ends inside the literal. -/
  | ended
  /-- The characters are no literal. -/
  | invalid
  /-- The value is past the largest finite number. -/
  | outOfRange
deriving DecidableEq, Repr

/-- The value of a decimal digit. -/
def digit? (c : Char) : Option Nat :=
  if '0' ≤ c ∧ c ≤ '9' then some (c.toNat - 48) else none

/-- Leading digits that fit an unsigned word, and how many digits follow them. -/
structure Significand where
  /-- The value of the digits that fit. -/
  value : Nat
  /-- The power of ten that the digits read so far call for. -/
  exponent : Int
deriving Repr

/-- The digits in front of the point: those that fit a word, then a count of the others. -/
def wholePart (value : Nat) (skipped : Nat) : List Char → Significand × List Char
  | [] => (⟨value, skipped⟩, [])
  | c :: cs =>
    match digit? c with
    | none => (⟨value, skipped⟩, c :: cs)
    | some d =>
      if skipped = 0 ∧ 10 * value + d < UInt64.size then wholePart (10 * value + d) 0 cs
      else wholePart value (skipped + 1) cs

/-- The digits behind the point.  Those that do not fit a word are dropped. -/
def fraction (s : Significand) (full : Bool) : List Char → Significand × List Char
  | [] => (s, [])
  | c :: cs =>
    match digit? c with
    | none => (s, c :: cs)
    | some d =>
      if !full && 10 * s.value + d < UInt64.size then
        fraction ⟨10 * s.value + d, s.exponent - 1⟩ false cs
      else fraction s true cs

/-- The digits of an exponent. -/
def exponentDigits (value : Nat) : List Char → Nat × List Char
  | [] => (value, [])
  | c :: cs =>
    match digit? c with
    | none => (value, c :: cs)
    | some d => exponentDigits (10 * value + d) cs

/-- The power of ten nearest to `10 ^ n`. -/
def tenPower (n : Nat) : Float := Float.ofScientific 1 false n

/-- A float divided by `1e308` until the rest of the exponent has a power of ten. -/
def shrink (f : Float) (down : Nat) : Nat → Float
  | 0 => 0.0
  | fuel + 1 => if down ≤ 308 then f / tenPower down else shrink (f / tenPower 308) (down - 308) fuel

/-- The absolute value of a floating point literal. -/
def magnitude (s : Significand) : Except Fault Float :=
  let f := (UInt64.ofNat s.value).toFloat
  if s.value = 0 then .ok 0.0
  else if s.exponent < 0 then .ok (shrink f s.exponent.natAbs 4)
  else if 308 < s.exponent then .error .outOfRange
  else
    let scaled := f * tenPower s.exponent.toNat
    if scaled.isInf then .error .outOfRange else .ok scaled

/-- A floating point number of a sign and a significand. -/
def floating (negative : Bool) (s : Significand) : Except Fault Number :=
  (magnitude s).map fun f => .float (if negative then -f else f).toBits

/-- A literal without fraction and exponent. -/
def integral (negative : Bool) (s : Significand) : Except Fault Number :=
  if s.exponent ≠ 0 then floating negative s
  else if !negative then .ok (.int s.value)
  else if s.value = 0 ∨ 0x8000000000000000 < s.value then floating true s
  else .ok (.int (-(s.value : Int)))

/-- The exponent behind its mark, applied to a significand. -/
def withExponent (negative : Bool) (s : Significand) (cs : List Char) :
    Except Fault Number × List Char :=
  let (down, cs) := match cs with
    | '+' :: rest => (false, rest)
    | '-' :: rest => (true, rest)
    | rest => (false, rest)
  match cs with
  | [] => (.error .ended, [])
  | c :: _ =>
    if (digit? c).isNone then (.error .invalid, cs)
    else
      let (power, rest) := exponentDigits 0 cs
      let shift : Int := if down then -(power : Int) else power
      (floating negative ⟨s.value, s.exponent + shift⟩, rest)

/-- What follows the whole part. -/
def afterWhole (negative : Bool) (s : Significand) (cs : List Char) :
    Except Fault Number × List Char :=
  match cs with
  | '.' :: rest =>
    match rest with
    | [] => (.error .ended, [])
    | c :: _ =>
      if (digit? c).isNone then (.error .invalid, rest)
      else
        let (s, rest) := fraction s (s.exponent ≠ 0) rest
        match rest with
        | 'e' :: tail => withExponent negative s tail
        | 'E' :: tail => withExponent negative s tail
        | _ => (floating negative s, rest)
  | 'e' :: rest => withExponent negative s rest
  | 'E' :: rest => withExponent negative s rest
  | _ => (integral negative s, cs)

/-- The literal behind its sign, and the text after it. -/
def read (negative : Bool) (cs : List Char) : Except Fault Number × List Char :=
  match cs with
  | [] => (.error .ended, [])
  | '0' :: rest =>
    match rest with
    | c :: _ => if (digit? c).isSome then (.error .invalid, rest)
                else afterWhole negative ⟨0, 0⟩ rest
    | [] => afterWhole negative ⟨0, 0⟩ []
  | c :: _ =>
    if (digit? c).isNone then (.error .invalid, cs)
    else
      let (s, rest) := wholePart 0 0 cs
      afterWhole negative s rest

end ChainIndex.Literal
