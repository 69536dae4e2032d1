/-!
# YAML nodes

A document is a tree of scalars, sequences and mappings.  A scalar is a text and
whether it was written plain, that is without quotes.  What a scalar stands for is
decided by the reader that wants it:

* null is an empty plain scalar, `~`, or `null` in one of three spellings of case;
* a truth value is `true` or `false`, plain, in the same three spellings;
* an integer is plain: an optional sign, then decimal digits without leading
  zeros, or digits of another base behind `0x`, `0o` or `0b`;
* a text is any scalar.
-/

namespace ChainIndex.Yaml

/-- A node of a document. -/
inductive Node where
  /-- A text, and whether it was written plain. -/
  | scalar (text : String) (plain : Bool)
  /-- The items in their order. -/
  | sequence (items : List Node)
  /-- The entries in their order, repeated keys included. -/
  | mapping (entries : List (Node × Node))
deriving Repr, Inhabited

/-- The empty plain scalar. -/
def Node.empty : Node := .scalar "" true

namespace Node

/-- The text of a scalar. -/
def text? : Node → Option String
  | .scalar text _ => some text
  | _ => none

/-- The node is the empty plain scalar. -/
def isEmpty : Node → Bool
  | .scalar text plain => plain && text.isEmpty
  | _ => false

/-- The node stands for nothing. -/
def isNull : Node → Bool
  | .scalar text plain => plain && ["", "~", "null", "Null", "NULL"].contains text
  | _ => false

/-- The truth value of a scalar. -/
def flag? : Node → Option Bool
  | .scalar text true =>
    if ["true", "True", "TRUE"].contains text then some true
    else if ["false", "False", "FALSE"].contains text then some false
    else none
  | _ => none

/-- The digit of a character in some base up to sixteen. -/
def digit? (base : Nat) (c : Char) : Option Nat :=
  let value? :=
    if '0' ≤ c ∧ c ≤ '9' then some (c.toNat - '0'.toNat)
    else if 'a' ≤ c ∧ c ≤ 'f' then some (c.toNat - 'a'.toNat + 10)
    else if 'A' ≤ c ∧ c ≤ 'F' then some (c.toNat - 'A'.toNat + 10)
    else none
  value?.filter (· < base)

/-- The number of one digit or more. -/
def digits? (base : Nat) : List Char → Option Nat
  | [] => none
  | cs => cs.foldlM (fun n c => (digit? base c).map (base * n + ·)) 0

/-- The number of digits behind the mark of their base. -/
def magnitude? : List Char → Option Nat
  | '0' :: 'x' :: cs => digits? 16 cs
  | '0' :: 'o' :: cs => digits? 8 cs
  | '0' :: 'b' :: cs => digits? 2 cs
  | ['0'] => some 0
  | '0' :: _ => none
  | cs => digits? 10 cs

/-- The integer of a scalar, signs other than a plus excluded. -/
def natural? : Node → Option Nat
  | .scalar text true =>
    match text.toList with
    | '+' :: cs => magnitude? cs
    | cs => magnitude? cs
  | _ => none

end Node

end ChainIndex.Yaml
