/-!
# Hexadecimal text

A node writes its numbers as hexadecimal *quantities* and its byte strings as
hexadecimal *data*, both after the mark `0x`.  The mark is lowercase and may be
missing.  Digits have either case.

* `word64?` reads a quantity below `2 ^ 64`.
* `word256?` reads a quantity below `2 ^ 256`, skipping `_`.
* `bytes?` reads data.  An odd count of digits reads as if a zero stood in front.
* `ofNat` and `ofBytes` write the two forms, with the fewest digits and with two
  digits to a byte.

All readers work on the list of characters, so a proof follows the digits.
-/

namespace ChainIndex.Hex

/-! ## Digits -/

/-- The value of a hexadecimal digit of either case. -/
def digit? (c : Char) : Option Nat :=
  if '0' ≤ c ∧ c ≤ '9' then some (c.toNat - 48)
  else if 'a' ≤ c ∧ c ≤ 'f' then some (c.toNat - 87)
  else if 'A' ≤ c ∧ c ≤ 'F' then some (c.toNat - 55)
  else none

/-- The lowercase digit of a value below sixteen. -/
def digitChar (n : Nat) : Char :=
  if n < 10 then Char.ofNat (48 + n) else Char.ofNat (87 + n)

/-- The value of digits, most significant first, after digits worth `acc`. -/
def foldDigits (acc : Nat) : List Char → Option Nat
  | [] => some acc
  | c :: cs => (digit? c).bind fun d => foldDigits (16 * acc + d) cs

/-- The text after the mark `0x`, or the whole text where there is none. -/
def unmark : List Char → List Char
  | '0' :: 'x' :: cs => cs
  | cs => cs

/-! ## Quantities -/

/-- The value of one digit or more, below the bound. -/
def quantity? (bound : Nat) (cs : List Char) : Option Nat :=
  if cs.isEmpty then none
  else (foldDigits 0 cs).filter (· < bound)

/-- A quantity below `2 ^ 64`: an optional mark, then digits alone. -/
def word64? (s : String) : Option UInt64 :=
  (quantity? UInt64.size (unmark s.toList)).map UInt64.ofNat

/-- `word64?`, with zero for every other text. -/
def word64 (s : String) : UInt64 := (word64? s).getD 0

/-- A quantity below `2 ^ 256`.  A `_` between or around digits is skipped, also
where it stands alone. -/
def word256? (s : String) : Option Nat :=
  let cs := unmark s.toList
  if cs.isEmpty then none
  else (foldDigits 0 (cs.filter (· ≠ '_'))).filter (· < Nat.pow 2 256)

/-- The decimal text of a `word256?` quantity, empty for every other text. -/
def decimal (s : String) : String :=
  match word256? s with
  | some n => toString n
  | none => ""

/-- The digits of a number, most significant first; zero is one digit. -/
def digits (n : Nat) : List Char :=
  if n < 16 then [digitChar n] else digits (n / 16) ++ [digitChar (n % 16)]
termination_by n

/-- A number as a marked quantity with the fewest digits. -/
def ofNat (n : Nat) : String := "0x" ++ String.ofList (digits n)

/-- The lowest `width` digits of a number, with zeros in front. -/
def padded (width n : Nat) : String :=
  let cs := digits n
  String.ofList (List.replicate (width - cs.length) '0' ++ cs)

/-! ## Data -/

/-- The bytes of an even count of digits. -/
def pairs : List Char → Option (List UInt8)
  | [] => some []
  | [_] => none
  | hi :: lo :: cs => do
      let h ← digit? hi
      let l ← digit? lo
      let rest ← pairs cs
      return UInt8.ofNat (16 * h + l) :: rest

/-- The bytes of marked or unmarked digits. -/
def bytes? (s : String) : Option (List UInt8) :=
  let cs := unmark s.toList
  pairs (if cs.length % 2 = 0 then cs else '0' :: cs)

/-- Two lowercase digits for a byte. -/
def bytePair (b : UInt8) : List Char :=
  [digitChar (b.toNat / 16), digitChar (b.toNat % 16)]

/-- Bytes as unmarked digits. -/
def ofBytes (bs : List UInt8) : String := String.ofList (bs.flatMap bytePair)

/-- Bytes as marked digits. -/
def markedBytes (bs : List UInt8) : String := "0x" ++ ofBytes bs

/-! ## Normal form -/

/-- ASCII letters in lower case, all else unchanged. -/
def lower (s : String) : String := s.map Char.toLower

/-- A hash with its mark and lowercase digits. -/
def normalize (s : String) : String :=
  "0x" ++ String.ofList ((unmark s.toList).map Char.toLower)

end ChainIndex.Hex
