import ChainIndex.Decimal.Shortest
import ChainIndex.Json.Basic

/-!
# Compact JSON text

Values are written without blanks.

* A floating point number always has a point or an exponent.  It is written with
  a point alone from `1e-5` up to `1e16`, and elsewhere with an exponent that
  carries its sign.
* A text escapes the quote, the backslash and the characters below the blank.
-/

namespace ChainIndex

/-! ## Numbers -/

/-- The digits of a shortest decimal with a point, or with an exponent outside
the range where a point alone is short. -/
def Number.floatDigits (digits : List Char) (exponent : Int) : String :=
  let point : Int := digits.length + exponent
  if 0 ≤ exponent ∧ point ≤ 16 then
    String.ofList (digits ++ List.replicate exponent.toNat '0') ++ ".0"
  else if 0 < point ∧ point ≤ 16 then
    String.ofList (digits.take point.toNat ++ '.' :: digits.drop point.toNat)
  else if -5 < point ∧ point ≤ 0 then
    String.ofList ('0' :: '.' :: List.replicate (-point).toNat '0' ++ digits)
  else
    let power := point - 1
    let sign := if power < 0 then "-" else "+"
    let mantissa := match digits with
      | [] => ""
      | [d] => d.toString
      | d :: ds => String.ofList (d :: '.' :: ds)
    mantissa ++ "e" ++ sign ++ toString power.natAbs

/-- The text of the bits of a finite floating point number. -/
def Number.floatText (bits : UInt64) : String :=
  let sign := if 0x8000000000000000 ≤ bits then "-" else ""
  let d := Decimal.shortest bits
  if d.digits = 0 then sign ++ "0.0"
  else sign ++ Number.floatDigits (Nat.toDigits 10 d.digits) d.exponent

/-- The text of a number. -/
def Number.text : Number → String
  | .int n => toString n
  | .float bits => Number.floatText bits

namespace Json

/-! ## Texts -/

/-- Four lowercase hexadecimal digits. -/
def fourDigits (n : Nat) : List Char :=
  let cs := Nat.toDigits 16 n
  List.replicate (4 - cs.length) '0' ++ cs

/-- One character inside a text. -/
def escapeChar (c : Char) : List Char :=
  match c with
  | '"' => ['\\', '"']
  | '\\' => ['\\', '\\']
  | '\x08' => ['\\', 'b']
  | '\x0c' => ['\\', 'f']
  | '\n' => ['\\', 'n']
  | '\r' => ['\\', 'r']
  | '\t' => ['\\', 't']
  | c => if c.toNat < 0x20 then '\\' :: 'u' :: fourDigits c.toNat else [c]

/-- A text between its quotes. -/
def quote (s : String) : String :=
  "\"" ++ String.ofList (s.toList.flatMap escapeChar) ++ "\""

/-! ## Values -/

mutual

/-- The compact text of a value. -/
def render : Json → String
  | .null => "null"
  | .bool b => if b then "true" else "false"
  | .num n => n.text
  | .str s => quote s
  | .arr [] => "[]"
  | .arr (item :: rest) => "[" ++ render item ++ renderItems rest
  | .obj [] => "\x7b\x7d"
  | .obj ((key, value) :: rest) =>
    "\x7b" ++ quote key ++ ":" ++ render value ++ renderMembers rest

/-- The items after the first, each behind its comma, and the closing bracket. -/
def renderItems : List Json → String
  | [] => "]"
  | item :: rest => "," ++ render item ++ renderItems rest

/-- The members after the first, each behind its comma, and the closing brace. -/
def renderMembers : List (String × Json) → String
  | [] => "\x7d"
  | (key, value) :: rest => "," ++ quote key ++ ":" ++ render value ++ renderMembers rest

end

end Json

end ChainIndex
