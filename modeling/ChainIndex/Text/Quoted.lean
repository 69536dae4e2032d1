/-!
# Quoted text in messages

A message that quotes a text writes it between double quotes.  A quote, a
backslash and what cannot be seen are escaped, all else is written as it is.
-/

namespace ChainIndex.Text

/-- The ranges of characters outside ASCII that a message escapes: controls,
format characters, separators, combining marks, and codes set aside for private use. -/
def hiddenRanges : List (Nat × Nat) :=
  [(0x80, 0xa0), (0xad, 0xad), (0x300, 0x36f), (0x483, 0x489), (0x591, 0x5bd), (0x600, 0x605),
   (0x610, 0x61a), (0x64b, 0x65f), (0x1680, 0x1680), (0x180e, 0x180e), (0x1ab0, 0x1aff),
   (0x1dc0, 0x1dff), (0x2000, 0x200f), (0x2028, 0x202f), (0x205f, 0x206f), (0x20d0, 0x20ff),
   (0x3000, 0x3000), (0xd7fc, 0xf8ff), (0xfe00, 0xfe0f), (0xfe20, 0xfe2f), (0xfeff, 0xfeff),
   (0xfff0, 0xfffb), (0xfffe, 0xffff), (0xe0000, 0x10ffff)]

/-- A character that a message does not show as it is. -/
def isHidden (c : Char) : Bool :=
  let n := c.toNat
  n < 0x20 || n == 0x7f || (0x80 ≤ n && hiddenRanges.any fun (lo, hi) => lo ≤ n && n ≤ hi)

/-- The code of a character between braces, in the fewest lowercase digits. -/
def codeEscape (c : Char) : String :=
  "\\u\x7b" ++ String.ofList (Nat.toDigits 16 c.toNat) ++ "\x7d"

/-- One character inside quotes. -/
def quotedChar (c : Char) : String :=
  match c with
  | '"' => "\\\""
  | '\\' => "\\\\"
  | '\n' => "\\n"
  | '\r' => "\\r"
  | '\t' => "\\t"
  | '\x00' => "\\0"
  | c => if isHidden c then codeEscape c else c.toString

/-- A text between double quotes. -/
def quoted (s : String) : String :=
  "\"" ++ String.join (s.toList.map quotedChar) ++ "\""

end ChainIndex.Text
