/-!
# JSON values

A value as a program keeps it: the members of an object that was read stand in the
order of their keys, each key once.  A number is an integer of 64 bits, with or without
sign, or a binary floating point number given by its bits.

`Json.object` builds an object from members in any order.  A repeated key keeps
its last value.  A record is written with its members in declared order instead.
-/

namespace ChainIndex

/-- A number of a JSON value. -/
inductive Number where
  /-- An integer between `-2 ^ 63` and `2 ^ 64 - 1`. -/
  | int (value : Int)
  /-- The bits of a finite floating point number. -/
  | float (bits : UInt64)
deriving DecidableEq, Repr, Inhabited

/-- A JSON value. -/
inductive Json where
  /-- The value `null`. -/
  | null
  /-- A truth value. -/
  | bool (value : Bool)
  /-- A number. -/
  | num (value : Number)
  /-- A text. -/
  | str (value : String)
  /-- A list of values. -/
  | arr (items : List Json)
  /-- Members, each key once. -/
  | obj (members : List (String × Json))
deriving BEq, Repr, Inhabited

/-! ## Members kept in the order of their keys -/

/-- Put a member where its key belongs, over the one with that key. -/
def Json.insertMember {α : Type} (key : String) (value : α) :
    List (String × α) → List (String × α)
  | [] => [(key, value)]
  | (k, v) :: rest =>
    if key < k then (key, value) :: (k, v) :: rest
    else if key = k then (key, value) :: rest
    else (k, v) :: Json.insertMember key value rest

/-- Members in the order of their keys; of a repeated key the last value stays. -/
def Json.sortMembers {α : Type} (members : List (String × α)) : List (String × α) :=
  members.foldl (fun acc (k, v) => Json.insertMember k v acc) []

/-- An object of members in any order. -/
def Json.object (members : List (String × Json)) : Json := .obj (Json.sortMembers members)

namespace Json

/-! ## Building values -/

/-- A natural number as a value. -/
def nat (n : Nat) : Json := .num (.int n)

/-- An unsigned word as a value. -/
def word (n : UInt64) : Json := .num (.int n.toNat)

/-- An integer as a value. -/
def int (n : Int) : Json := .num (.int n)

/-- A value or `null`. -/
def ofOption {α : Type} (f : α → Json) : Option α → Json
  | some a => f a
  | none => .null

/-- A list of values. -/
def list {α : Type} (f : α → Json) (items : List α) : Json := .arr (items.map f)

/-! ## Reading values -/

/-- The member with a key, where the value is an object that has one. -/
def get? (key : String) : Json → Option Json
  | .obj members => (members.find? fun m => m.1 == key).map (·.2)
  | _ => none

/-- The value put over a member of an object. -/
def set (object : Json) (key : String) (value : Json) : Json :=
  match object with
  | .obj members => .obj (insertMember key value members)
  | other => other

/-- Every member of the second object put over the first. -/
def merge (base top : Json) : Json :=
  match top with
  | .obj members => members.foldl (fun acc (k, v) => acc.set k v) base
  | _ => base

/-- A text, where the value is one. -/
def text? : Json → Option String
  | .str s => some s
  | _ => none

/-- An unsigned integer, where the value is one. -/
def nat? : Json → Option Nat
  | .num (.int (.ofNat n)) => some n
  | _ => none

/-- A truth value, where the value is one. -/
def bool? : Json → Option Bool
  | .bool b => some b
  | _ => none

/-- The items, where the value is a list. -/
def items? : Json → Option (List Json)
  | .arr items => some items
  | _ => none

/-- The members, where the value is an object. -/
def members? : Json → Option (List (String × Json))
  | .obj members => some members
  | _ => none

end Json

end ChainIndex
