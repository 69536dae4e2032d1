import ChainIndex.Json.Printer
import ChainIndex.Json.Reader
import ChainIndex.Text.Quoted

/-!
# Reading records

A record is read from an object by the names of its members, or from a list by
position.  The description of a record is a list of slots, one per field in
declared order.

* Members are read in the order of the source.  The first that has the wrong
  shape, or repeats a field, is the fault reported.  Unknown members are skipped.
* Only then is the first missing required field reported, in declared order.
* A list must hold an item for every field up to the last required one, and no
  item past the last field.

`Origin` tells a plain value from a text.  They differ in one fault: a surplus
item of a list in a text makes the text malformed.
-/

namespace ChainIndex

/-- What a reader works on. -/
inductive Origin where
  /-- A plain value. -/
  | value
  /-- A text. -/
  | text
deriving DecidableEq, Repr

/-- Why a source is not of the shape wanted. -/
inductive Mismatch where
  /-- The text is malformed. -/
  | malformed (fault : Malformed)
  /-- Another kind of value stands there. -/
  | type (found expected : String)
  /-- The value has the right kind and is out of range. -/
  | value (found expected : String)
  /-- A list has the wrong count of items. -/
  | length (found : Nat) (expected : String)
  /-- A required field is missing. -/
  | missing (field : String)
  /-- A field stands twice. -/
  | duplicate (field : String)
  /-- A name is none of the choices. -/
  | variant (found : String) (choices : List String)
  /-- No alternative fits. -/
  | noAlternative (title : String)
deriving DecidableEq, Repr, Inhabited

/-- A name between backticks. -/
def ticked (s : String) : String := "`" ++ s ++ "`"

/-- The wording of a mismatch. -/
def Mismatch.message : Mismatch → String
  | .malformed fault => fault.message
  | .type found expected => "invalid type: " ++ found ++ ", expected " ++ expected
  | .value found expected => "invalid value: " ++ found ++ ", expected " ++ expected
  | .length found expected => "invalid length " ++ toString found ++ ", expected " ++ expected
  | .missing field => "missing field " ++ ticked field
  | .duplicate field => "duplicate field " ++ ticked field
  | .variant found choices =>
    "unknown variant " ++ ticked found ++ ", expected "
      ++ (match choices with
          | [a] => ticked a
          | [a, b] => ticked a ++ " or " ++ ticked b
          | _ => "one of " ++ ", ".intercalate (choices.map ticked))
  | .noAlternative title => "data did not match any variant of untagged enum " ++ title

/-- The mismatch is malformed text, not a wrong shape. -/
def Mismatch.isMalformed : Mismatch → Bool
  | .malformed _ => true
  | _ => false

namespace Source

/-- How a message names what stands there. -/
def kind : Source → String
  | .null => "null"
  | .bool b => "boolean " ++ ticked (if b then "true" else "false")
  | .num (.int n) => "integer " ++ ticked (toString n)
  | .num (.float bits) => "floating point " ++ ticked (Number.floatText bits)
  | .str s => "string " ++ Text.quoted s
  | .arr _ => "sequence"
  | .obj _ => "map"
  | .broken _ => ""

/-- The fault of a source that is not what was expected. -/
def unexpected {α : Type} (source : Source) (expected : String) : Except Mismatch α :=
  match source with
  | .broken fault => .error (.malformed fault)
  | other => .error (.type other.kind expected)

mutual

/-- The fault met when a source is skipped.  A number out of range is none. -/
def skip : Source → Except Mismatch Unit
  | .broken .numberOutOfRange => .ok ()
  | .broken fault => .error (.malformed fault)
  | .arr items => skipItems items
  | .obj members => skipMembers members
  | _ => .ok ()

/-- The fault met when items are skipped. -/
def skipItems : List Source → Except Mismatch Unit
  | [] => .ok ()
  | item :: rest => do skip item; skipItems rest

/-- The fault met when members are skipped. -/
def skipMembers : List (String × Source) → Except Mismatch Unit
  | [] => .ok ()
  | (_, item) :: rest => do skip item; skipMembers rest

end

/-! ## Scalars -/

/-- A text. -/
def readText : Source → Except Mismatch String
  | .str s => .ok s
  | other => other.unexpected "a string"

/-- A file path. -/
def readPath : Source → Except Mismatch String
  | .str s => .ok s
  | other => other.unexpected "path string"

/-- A truth value. -/
def readBool : Source → Except Mismatch Bool
  | .bool b => .ok b
  | other => other.unexpected "a boolean"

/-- An integer from `low` up to `high`, named in messages. -/
def readInteger (low high : Int) (expected : String) : Source → Except Mismatch Int
  | .num (.int n) =>
    if low ≤ n ∧ n ≤ high then .ok n
    else .error (.value (Source.num (.int n)).kind expected)
  | other => other.unexpected expected

/-- An unsigned word of 64 bits. -/
def readWord64 (s : Source) : Except Mismatch UInt64 :=
  (readInteger 0 (UInt64.size - 1) "u64" s).map fun n => UInt64.ofNat n.toNat

/-- An unsigned word of 32 bits. -/
def readWord32 (s : Source) : Except Mismatch UInt32 :=
  (readInteger 0 (UInt32.size - 1) "u32" s).map fun n => UInt32.ofNat n.toNat

/-- An unsigned word of 16 bits. -/
def readWord16 (s : Source) : Except Mismatch UInt16 :=
  (readInteger 0 (UInt16.size - 1) "u16" s).map fun n => UInt16.ofNat n.toNat

/-- A signed word of 64 bits. -/
def readSigned (s : Source) : Except Mismatch Int64 :=
  (readInteger Int64.minValue.toInt Int64.maxValue.toInt "i64" s).map Int64.ofInt

/-- Any value. -/
def readAny (s : Source) : Except Mismatch Json :=
  match s.value? with
  | .ok v => .ok v
  | .error fault => .error (.malformed fault)

/-- `null`, or what another reader takes. -/
def readOption {α : Type} (read : Source → Except Mismatch α) :
    Source → Except Mismatch (Option α)
  | .null => .ok none
  | other => (read other).map some

/-- A list of what another reader takes. -/
def readList {α : Type} (read : Source → Except Mismatch α) : Source → Except Mismatch (List α)
  | .arr items => items.mapM read
  | other => other.unexpected "a sequence"

/-- A map from texts to what another reader takes, in the order of its keys. -/
def readMap {α : Type} (read : Source → Except Mismatch α) :
    Source → Except Mismatch (List (String × α))
  | .obj members => do
    let entries ← members.mapM fun (key, item) => do
      match item with
      | .broken fault => throw (.malformed fault)
      | item => return (key, ← read item)
    return Json.sortMembers entries
  | other => other.unexpected "a map"

/-- One of the names of an enumeration, as a text or as the key of `null`. -/
def readChoice {α : Type} (choices : List (String × α)) :
    Source → Except Mismatch α
  | .str s => pick s
  | .obj [] => .error (.value "map" "map with a single key")
  | .obj [(key, item)] => do
    let choice ← pick key
    match item with
    | .null => return choice
    | other => other.unexpected "unit"
  | .obj _ => .error (.value "map" "map with a single key")
  | other => other.unexpected "string or map"
where
  /-- The choice with a name. -/
  pick (name : String) : Except Mismatch α :=
    match choices.find? fun c => c.1 == name with
    | some (_, a) => .ok a
    | none => .error (.variant name (choices.map (·.1)))

end Source

/-! ## Records -/

/-- Whether a field has to be there. -/
inductive Presence where
  /-- It has to be there. -/
  | required
  /-- It may be missing from an object and from a list. -/
  | optional
  /-- It may be missing from an object only. -/
  | optionalByName
deriving DecidableEq, Repr

/-- How one field of a record is read. -/
structure Slot (ρ : Type) where
  /-- The name of the field. -/
  name : String
  /-- Whether the field has to be there. -/
  presence : Presence
  /-- The record with the field taken from a source. -/
  put : Source → ρ → Except Mismatch ρ

/-- A slot of a field that another reader takes. -/
def Slot.of {ρ α : Type} (name : String) (presence : Presence)
    (read : Source → Except Mismatch α) (set : α → ρ → ρ) : Slot ρ where
  name := name
  presence := presence
  put source record := (read source).map fun a => set a record

/-- A record type and its slots. -/
structure Shape (ρ : Type) where
  /-- The name of the record in messages. -/
  title : String
  /-- The record before any field is read. -/
  blank : ρ
  /-- The fields in declared order. -/
  slots : List (Slot ρ)

namespace Shape

variable {ρ : Type}

/-- Members read in their order, with the names of the fields seen. -/
def readMembers (shape : Shape ρ) :
    List (String × Source) → List String → ρ → Except Mismatch (List String × ρ)
  | [], seen, record => .ok (seen, record)
  | (key, item) :: rest, seen, record =>
    match shape.slots.find? fun slot => slot.name == key with
    | none => do
      item.skip
      shape.readMembers rest seen record
    | some slot => do
      if seen.contains key then throw (.duplicate key)
      let record ← slot.put item record
      shape.readMembers rest (key :: seen) record

/-- The first required field that was not seen. -/
def firstMissing (shape : Shape ρ) (seen : List String) : Option String :=
  (shape.slots.find? fun slot => slot.presence = .required && !seen.contains slot.name).map (·.name)

/-- Items read by position, and the items past the last field. -/
def readItems (shape : Shape ρ) (position : Nat) :
    List (Slot ρ) → List Source → ρ → Except Mismatch (List Source × ρ)
  | [], rest, record => .ok (rest, record)
  | slot :: slots, [], record =>
    if slot.presence = .optional then shape.readItems (position + 1) slots [] record
    else .error (.length position
      ("struct " ++ shape.title ++ " with " ++ toString shape.slots.length ++ " elements"))
  | slot :: slots, item :: rest, record => do
    let record ← match item with
      | .broken fault => throw (.malformed fault)
      | item => slot.put item record
    shape.readItems (position + 1) slots rest record

/-- A record of a source. -/
def read (shape : Shape ρ) (origin : Origin) : Source → Except Mismatch ρ
  | .obj members => do
    let (seen, record) ← shape.readMembers members [] shape.blank
    match shape.firstMissing seen with
    | some name => throw (.missing name)
    | none => return record
  | .arr items => do
    let (rest, record) ← shape.readItems 0 shape.slots items shape.blank
    match rest, origin with
    | [], _ => return record
    | .broken fault :: _, _ => throw (.malformed fault)
    | _ :: _, .text => throw (.malformed .trailingCharacters)
    | _ :: _, .value => throw (.length items.length "fewer elements in array")
  | other => other.unexpected ("struct " ++ shape.title)

/-- A record of a plain value. -/
def ofJson (shape : Shape ρ) (v : Json) : Except Mismatch ρ :=
  shape.read .value (Source.ofJson v)

end Shape

/-- What a reader takes from a whole text: its value first, then nothing but blanks. -/
def readText {α : Type} (read : Source → Except Mismatch α) (s : String) : Except Mismatch α :=
  match Source.ofText s with
  | (source, trailing) => do
    let a ← read source
    match trailing with
    | none => return a
    | some fault => throw (.malformed fault)

end ChainIndex
