import ChainIndex.Json.Literal

/-!
# Reading JSON text

A reader that looks for a record must know in which order the members of an
object stand, which keys are repeated, and what had been read when the text
turned out to be malformed.  So a text is read into a `Source`, which keeps all
of that: where reading stopped stands a `broken` leaf, inside the lists and
objects that were open at that point.

`Source.value?` is the plain value of a text without such a leaf.  Brackets may
be nested `Source.depthLimit` deep.
-/

namespace ChainIndex

/-- Why a text is not JSON. -/
inductive Malformed where
  /-- The text ends where a value should stand. -/
  | endInValue
  /-- The text ends inside a list. -/
  | endInList
  /-- The text ends inside an object. -/
  | endInObject
  /-- The text ends inside a text. -/
  | endInText
  /-- No value starts with this character. -/
  | expectedValue
  /-- A word starts like a literal and is none. -/
  | expectedIdent
  /-- A key is not followed by a colon. -/
  | expectedColon
  /-- An item is followed neither by a comma nor by the end of its list. -/
  | expectedListEnd
  /-- A member is followed neither by a comma nor by the end of its object. -/
  | expectedObjectEnd
  /-- A key does not start with a quote. -/
  | keyNotText
  /-- A comma stands before a closing bracket. -/
  | trailingComma
  /-- Something follows the value. -/
  | trailingCharacters
  /-- A backslash is followed by no escape. -/
  | invalidEscape
  /-- The first half of a surrogate pair is not followed by an escape. -/
  | endOfEscape
  /-- Half of a surrogate pair stands alone. -/
  | loneSurrogate
  /-- A text holds a control character. -/
  | controlCharacter
  /-- A number literal is malformed. -/
  | invalidNumber
  /-- A number is past the largest finite one. -/
  | numberOutOfRange
  /-- Brackets are nested too deep. -/
  | tooDeep
deriving DecidableEq, Repr, Inhabited

/-- The wording of a fault. -/
def Malformed.message : Malformed → String
  | .endInValue => "EOF while parsing a value"
  | .endInList => "EOF while parsing a list"
  | .endInObject => "EOF while parsing an object"
  | .endInText => "EOF while parsing a string"
  | .expectedValue => "expected value"
  | .expectedIdent => "expected ident"
  | .expectedColon => "expected `:`"
  | .expectedListEnd => "expected `,` or `]`"
  | .expectedObjectEnd => "expected `,` or `\x7d`"
  | .keyNotText => "key must be a string"
  | .trailingComma => "trailing comma"
  | .trailingCharacters => "trailing characters"
  | .invalidEscape => "invalid escape"
  | .endOfEscape => "unexpected end of hex escape"
  | .loneSurrogate => "lone leading surrogate in hex escape"
  | .controlCharacter =>
    "control character (\\u0000-\\u001F) found while parsing a string"
  | .invalidNumber => "invalid number"
  | .numberOutOfRange => "number out of range"
  | .tooDeep => "recursion limit exceeded"

/-- A JSON text as it was read. -/
inductive Source where
  /-- The value `null`. -/
  | null
  /-- A truth value. -/
  | bool (value : Bool)
  /-- A number. -/
  | num (value : Number)
  /-- A text. -/
  | str (value : String)
  /-- The items in their order. -/
  | arr (items : List Source)
  /-- The members in their order, repeated keys included. -/
  | obj (members : List (String × Source))
  /-- Reading stopped here. -/
  | broken (fault : Malformed)
deriving Repr, Inhabited

namespace Source

/-- How deep brackets may be nested. -/
def depthLimit : Nat := 127

/-! ## Blanks, words and texts -/

/-- The text after blanks. -/
def skipBlanks : List Char → List Char
  | ' ' :: cs => skipBlanks cs
  | '\n' :: cs => skipBlanks cs
  | '\t' :: cs => skipBlanks cs
  | '\r' :: cs => skipBlanks cs
  | cs => cs

/-- The text after the rest of a literal word. -/
def word : List Char → List Char → Except Malformed (List Char)
  | [], cs => .ok cs
  | _ :: _, [] => .error .endInValue
  | w :: ws, c :: cs => if w = c then word ws cs else .error .expectedIdent

/-- Four hexadecimal digits of an escape. -/
def hexFour : List Char → Except Malformed (Nat × List Char)
  | a :: b :: c :: d :: rest =>
    let digit? (c : Char) : Option Nat :=
      if '0' ≤ c ∧ c ≤ '9' then some (c.toNat - 48)
      else if 'a' ≤ c ∧ c ≤ 'f' then some (c.toNat - 87)
      else if 'A' ≤ c ∧ c ≤ 'F' then some (c.toNat - 55)
      else none
    match digit? a, digit? b, digit? c, digit? d with
    | some w, some x, some y, some z => .ok (((w * 16 + x) * 16 + y) * 16 + z, rest)
    | _, _, _, _ => .error .invalidEscape
  | _ => .error .endInText

/-- The character of an escape that gives its code, and the text after it. -/
def codeEscape (cs : List Char) : Except Malformed (Char × List Char) := do
  let (high, rest) ← hexFour cs
  if 0xDC00 ≤ high ∧ high < 0xE000 then throw .loneSurrogate
  else if 0xD800 ≤ high ∧ high < 0xDC00 then
    match rest with
    | '\\' :: 'u' :: tail =>
      let (low, tail) ← hexFour tail
      if 0xDC00 ≤ low ∧ low < 0xE000 then
        return (Char.ofNat ((high - 0xD800) * 0x400 + (low - 0xDC00) + 0x10000), tail)
      else throw .loneSurrogate
    | [] => throw .endInText
    | ['\\'] => throw .endInText
    | _ => throw .endOfEscape
  else return (Char.ofNat high, rest)

/-- The character of an escape behind its backslash, and the text after it. -/
def escape : List Char → Except Malformed (Char × List Char)
  | [] => .error .endInText
  | '"' :: cs => .ok ('"', cs)
  | '\\' :: cs => .ok ('\\', cs)
  | '/' :: cs => .ok ('/', cs)
  | 'b' :: cs => .ok ('\x08', cs)
  | 'f' :: cs => .ok ('\x0c', cs)
  | 'n' :: cs => .ok ('\n', cs)
  | 'r' :: cs => .ok ('\r', cs)
  | 't' :: cs => .ok ('\t', cs)
  | 'u' :: cs => codeEscape cs
  | _ => .error .invalidEscape

/-- The characters of a text behind its opening quote, newest first in `acc`. -/
def textBody (acc : List Char) : Nat → List Char → Except Malformed (List Char × List Char)
  | 0, _ => .error .endInText
  | _ + 1, [] => .error .endInText
  | fuel + 1, c :: cs =>
    match c with
    | '"' => .ok (acc.reverse, cs)
    | '\\' =>
      match escape cs with
      | .ok (e, rest) => textBody (e :: acc) fuel rest
      | .error fault => .error fault
    | c => if c.toNat < 0x20 then .error .controlCharacter else textBody (c :: acc) fuel cs

/-- A text behind its opening quote, and the text after it. -/
def text (cs : List Char) : Except Malformed (String × List Char) :=
  (textBody [] (cs.length + 1) cs).map fun (t, rest) => (String.ofList t, rest)

/-! ## Values -/

/-- What was read, and the text after it unless reading stopped. -/
abbrev Outcome := Source × Option (List Char)

/-- Reading stopped. -/
def stop (fault : Malformed) : Outcome := (.broken fault, none)

/-- A number behind its sign. -/
def number (negative : Bool) (cs : List Char) : Outcome :=
  match Literal.read negative cs with
  | (.ok n, rest) => (.num n, some rest)
  | (.error .ended, _) => stop .endInValue
  | (.error .invalid, _) => stop .invalidNumber
  | (.error .outOfRange, rest) => (.broken .numberOutOfRange, some rest)

/-- A literal word and its value. -/
def literal (ending : List Char) (value : Source) (cs : List Char) : Outcome :=
  match word ending cs with
  | .ok rest => (value, some rest)
  | .error fault => stop fault

/-- Whether another item follows, and the text at it. -/
def nextItem (first : Bool) (cs : List Char) : Except Malformed (Bool × List Char) :=
  match skipBlanks cs with
  | [] => .error .endInList
  | ']' :: rest => .ok (false, rest)
  | c :: rest =>
    if first then .ok (true, c :: rest)
    else if c = ',' then
      match skipBlanks rest with
      | [] => .error .endInValue
      | ']' :: _ => .error .trailingComma
      | tail => .ok (true, tail)
    else .error .expectedListEnd

/-- Whether another member follows, and the text at its key. -/
def nextMember (first : Bool) (cs : List Char) : Except Malformed (Bool × List Char) :=
  match skipBlanks cs with
  | [] => .error .endInObject
  | '\x7d' :: rest => .ok (false, rest)
  | c :: rest =>
    if first then (if c = '"' then .ok (true, c :: rest) else .error .keyNotText)
    else if c = ',' then
      match skipBlanks rest with
      | [] => .error .endInValue
      | '\x7d' :: _ => .error .trailingComma
      | '"' :: tail => .ok (true, '"' :: tail)
      | _ => .error .keyNotText
    else .error .expectedObjectEnd

/-- The text after the colon behind a key. -/
def colon (cs : List Char) : Except Malformed (List Char) :=
  match skipBlanks cs with
  | [] => .error .endInObject
  | ':' :: rest => .ok rest
  | _ => .error .expectedColon

/-- A key, its colon, and the text at its value. -/
def keyAndColon (cs : List Char) : Except Malformed (String × List Char) := do
  let (key, rest) ← text (cs.drop 1)
  let rest ← colon rest
  return (key, rest)

mutual

/-- A value inside `depth` more levels of brackets. -/
def readValue (depth : Nat) : Nat → List Char → Outcome
  | 0, _ => stop .endInValue
  | fuel + 1, cs =>
    match skipBlanks cs with
    | [] => stop .endInValue
    | 'n' :: rest => literal ['u', 'l', 'l'] .null rest
    | 't' :: rest => literal ['r', 'u', 'e'] (.bool true) rest
    | 'f' :: rest => literal ['a', 'l', 's', 'e'] (.bool false) rest
    | '-' :: rest => number true rest
    | '"' :: rest =>
      match text rest with
      | .ok (s, tail) => (.str s, some tail)
      | .error fault => stop fault
    | '[' :: rest =>
      if depth = 0 then stop .tooDeep else readItems (depth - 1) [] fuel rest
    | '\x7b' :: rest =>
      if depth = 0 then stop .tooDeep else readMembers (depth - 1) [] fuel rest
    | c :: rest =>
      if c.isDigit then number false (c :: rest) else stop .expectedValue

/-- The items of a list, newest first in `acc`. -/
def readItems (depth : Nat) (acc : List Source) : Nat → List Char → Outcome
  | 0, _ => (.arr ((Source.broken .endInList :: acc).reverse), none)
  | fuel + 1, cs =>
    match nextItem acc.isEmpty cs with
    | .error fault => (.arr ((Source.broken fault :: acc).reverse), none)
    | .ok (false, rest) => (.arr acc.reverse, some rest)
    | .ok (true, rest) =>
      match readValue depth fuel rest with
      | (item, some tail) => readItems depth (item :: acc) fuel tail
      | (item, none) => (.arr ((item :: acc).reverse), none)

/-- The members of an object, newest first in `acc`. -/
def readMembers (depth : Nat) (acc : List (String × Source)) : Nat → List Char → Outcome
  | 0, _ => (.obj ((("", Source.broken .endInObject) :: acc).reverse), none)
  | fuel + 1, cs =>
    match nextMember acc.isEmpty cs with
    | .error fault => (.obj ((("", Source.broken fault) :: acc).reverse), none)
    | .ok (false, rest) => (.obj acc.reverse, some rest)
    | .ok (true, rest) =>
      match keyAndColon rest with
      | .error fault => (.obj ((("", Source.broken fault) :: acc).reverse), none)
      | .ok (key, tail) =>
        match readValue depth fuel tail with
        | (value, some tail) => readMembers depth ((key, value) :: acc) fuel tail
        | (value, none) => (.obj (((key, value) :: acc).reverse), none)

end

/-- The source of a text, and whether anything but blanks follows its value. -/
def ofText (s : String) : Source × Option Malformed :=
  let cs := s.toList
  match readValue depthLimit (2 * cs.length + 2) cs with
  | (source, none) => (source, none)
  | (source, some rest) =>
    (source, if (skipBlanks rest).isEmpty then none else some .trailingCharacters)

/-! ## Plain values -/

mutual

/-- The value of a source without a broken leaf. -/
def value? : Source → Except Malformed Json
  | .null => .ok .null
  | .bool b => .ok (.bool b)
  | .num n => .ok (.num n)
  | .str s => .ok (.str s)
  | .arr items => (values? items).map .arr
  | .obj members => (memberValues? members).map Json.object
  | .broken fault => .error fault

/-- The values of items. -/
def values? : List Source → Except Malformed (List Json)
  | [] => .ok []
  | item :: rest => do
    let v ← value? item
    let vs ← values? rest
    return v :: vs

/-- The values of members. -/
def memberValues? : List (String × Source) → Except Malformed (List (String × Json))
  | [] => .ok []
  | (key, item) :: rest => do
    let v ← value? item
    let vs ← memberValues? rest
    return (key, v) :: vs

end

mutual

/-- A value as a source. -/
def ofJson : Json → Source
  | .null => .null
  | .bool b => .bool b
  | .num n => .num n
  | .str s => .str s
  | .arr items => .arr (ofItems items)
  | .obj members => .obj (ofMembers members)

/-- Values as the items of a source. -/
def ofItems : List Json → List Source
  | [] => []
  | item :: rest => ofJson item :: ofItems rest

/-- Members of a value as the members of a source. -/
def ofMembers : List (String × Json) → List (String × Source)
  | [] => []
  | (key, item) :: rest => (key, ofJson item) :: ofMembers rest

end

end Source

/-- The value of a JSON text. -/
def Json.parse (s : String) : Except Malformed Json :=
  match Source.ofText s with
  | (source, trailing) =>
    match source.value? with
    | .error fault => .error fault
    | .ok v => match trailing with
      | none => .ok v
      | some fault => .error fault

end ChainIndex
