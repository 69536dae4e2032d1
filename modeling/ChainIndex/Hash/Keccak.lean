/-!
# Keccak-256

The digest with the first padding byte `0x01`.  The state is twenty-five lanes of
sixty-four bits, lane `x + 5 * y` at column `x` and row `y`.  A message is taken
in blocks of 136 bytes, each lane from eight bytes, lowest first.
-/

namespace ChainIndex.Keccak

/-- A state: twenty-five lanes. -/
abbrev State := Array UInt64

/-- A lane rotated left by less than its width. -/
def rotateLeft (x : UInt64) (n : UInt64) : UInt64 :=
  if n = 0 then x else (x <<< n) ||| (x >>> (64 - n))

/-- The lane at a position, zero outside the state. -/
def lane (s : State) (i : Nat) : UInt64 := s.getD i 0

/-- The constants of the twenty-four rounds. -/
def roundConstants : List UInt64 :=
  [0x0000000000000001, 0x0000000000008082, 0x800000000000808a, 0x8000000080008000,
   0x000000000000808b, 0x0000000080000001, 0x8000000080008081, 0x8000000000008009,
   0x000000000000008a, 0x0000000000000088, 0x0000000080008009, 0x000000008000000a,
   0x000000008000808b, 0x800000000000008b, 0x8000000000008089, 0x8000000000008003,
   0x8000000000008002, 0x8000000000000080, 0x000000000000800a, 0x800000008000000a,
   0x8000000080008081, 0x8000000000008080, 0x0000000080000001, 0x8000000080008008]

/-- How far the lane at each position is rotated. -/
def rotations : Array UInt64 :=
  #[0, 1, 62, 28, 27, 36, 44, 6, 55, 20, 3, 10, 43, 25, 39, 41, 45, 15, 21, 8, 18, 2, 61, 56, 14]

/-- The parity of each column mixed into its neighbours. -/
def mixColumns (s : State) : State :=
  let parity := (Array.range 5).map fun x =>
    lane s x ^^^ lane s (x + 5) ^^^ lane s (x + 10) ^^^ lane s (x + 15) ^^^ lane s (x + 20)
  (Array.range 25).map fun i =>
    lane s i ^^^ parity.getD ((i + 4) % 5) 0 ^^^ rotateLeft (parity.getD ((i + 1) % 5) 0) 1

/-- Each lane rotated and moved.  The lane at column `x` and row `y` comes from column
`x + 3 * y` and row `x`. -/
def rotateAndMove (s : State) : State :=
  (Array.range 25).map fun i =>
    let x := i % 5
    let y := i / 5
    let source := (x + 3 * y) % 5 + 5 * x
    rotateLeft (lane s source) (rotations.getD source 0)

/-- Each lane mixed with the two after it in its row. -/
def mixRows (s : State) : State :=
  (Array.range 25).map fun i =>
    let row := 5 * (i / 5)
    lane s i ^^^ (~~~lane s (row + (i + 1) % 5) &&& lane s (row + (i + 2) % 5))

/-- One round with its constant. -/
def round (s : State) (c : UInt64) : State :=
  let s := mixRows (rotateAndMove (mixColumns s))
  s.modify 0 (· ^^^ c)

/-- The twenty-four rounds. -/
def permute (s : State) : State := roundConstants.foldl round s

/-- How many bytes of the message go into one block. -/
def rate : Nat := 136

/-- The bytes after a message, up to the end of its last block. -/
def padding (size : Nat) : List UInt8 :=
  let gap := rate - size % rate
  if gap = 1 then [0x81] else 0x01 :: List.replicate (gap - 2) 0 ++ [0x80]

/-- The lanes of bytes, lowest byte first. -/
def lanes : List UInt8 → List UInt64
  | a :: b :: c :: d :: e :: f :: g :: h :: rest =>
    UInt64.ofNat (a.toNat + 256 * (b.toNat + 256 * (c.toNat + 256 * (d.toNat + 256 * (e.toNat
      + 256 * (f.toNat + 256 * (g.toNat + 256 * h.toNat))))))) :: lanes rest
  | _ => []

/-- The state after a block. -/
def absorbBlock (s : State) (block : List UInt64) : State :=
  permute ((Array.range 25).map fun i => lane s i ^^^ block.getD i 0)

/-- The state after lanes in blocks of seventeen. -/
def absorb (s : State) : Nat → List UInt64 → State
  | 0, _ => s
  | fuel + 1, ls =>
    if ls.isEmpty then s else absorb (absorbBlock s (ls.take 17)) fuel (ls.drop 17)

/-- The eight bytes of a lane, lowest first. -/
def laneBytes (l : UInt64) : List UInt8 :=
  (List.range 8).map fun i => (l >>> (8 * UInt64.ofNat i)).toUInt8

/-- The digest of a message. -/
def digest (message : List UInt8) : List UInt8 :=
  let ls := lanes (message ++ padding message.length)
  let s := absorb (Array.replicate 25 0) (ls.length / 17 + 1) ls
  (List.range 4).flatMap fun i => laneBytes (lane s i)

end ChainIndex.Keccak
