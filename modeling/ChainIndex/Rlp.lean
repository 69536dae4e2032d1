/-!
# Recursive length prefixes

Strings of bytes and lists of such strings as one string of bytes.

* A single byte below `0x80` stands for itself.
* A string of up to 55 bytes follows the byte `0x80` plus its length, a longer one
  the byte `0xb7` plus the length of its length, and its length.
* A list follows a head of the same two forms, built on `0xc0` and `0xf7`.
* An integer is the string of its bytes, most significant first, without zeros in
  front; zero is the empty string.
-/

namespace ChainIndex.Rlp

/-- The bytes of a number, most significant first, without zeros in front. -/
def bigEndian (n : Nat) : List UInt8 :=
  if n = 0 then [] else bigEndian (n / 256) ++ [UInt8.ofNat n]
termination_by n

/-- The head in front of a payload of a length. -/
def head (base : Nat) (length : Nat) : List UInt8 :=
  if length ≤ 55 then [UInt8.ofNat (base + length)]
  else
    let digits := bigEndian length
    UInt8.ofNat (base + 55 + digits.length) :: digits

/-- A string of bytes. -/
def string (bytes : List UInt8) : List UInt8 :=
  match bytes with
  | [b] => if b < 0x80 then [b] else head 0x80 1 ++ [b]
  | _ => head 0x80 bytes.length ++ bytes

/-- An integer as a string of bytes. -/
def integer (n : Nat) : List UInt8 := string (bigEndian n)

/-- A list of strings. -/
def list (items : List (List UInt8)) : List UInt8 :=
  let payload := items.flatMap string
  head 0xc0 payload.length ++ payload

end ChainIndex.Rlp
