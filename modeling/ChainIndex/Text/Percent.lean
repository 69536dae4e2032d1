import ChainIndex.Text.Hex

/-!
# Percent escapes

In the text of an address a percent sign with two hexadecimal digits stands for a
byte.  A percent sign without them stands for itself.
-/

namespace ChainIndex.Percent

/-- The bytes that characters stand for. -/
def bytes : List Char → List UInt8
  | [] => []
  | '%' :: hi :: lo :: rest =>
    match Hex.digit? hi, Hex.digit? lo with
    | some h, some l => UInt8.ofNat (16 * h + l) :: bytes rest
    | _, _ => 0x25 :: bytes (hi :: lo :: rest)
  | c :: rest => String.utf8EncodeChar c ++ bytes rest

/-- The text that a text stands for, where its bytes are one. -/
def decode? (s : String) : Option String := String.fromUTF8? ⟨(bytes s.toList).toArray⟩

end ChainIndex.Percent
