import ChainIndex.Json.Basic

/-!
# Members read loosely

Some objects are written by hand, with only those members that matter.  Here a member
that is missing, or is of another type, reads as a blank value: zero, the empty text,
false, the empty list or `null`.
-/

namespace ChainIndex.Json

/-- A natural number, zero where the value is none. -/
def asNat (j : Json) : Nat := j.nat?.getD 0

/-- An unsigned word, zero where the value is none. -/
def asWord (j : Json) : UInt64 := UInt64.ofNat j.asNat

/-- A text, empty where the value is none. -/
def asText (j : Json) : String := j.text?.getD ""

/-- A member, `null` where it is missing. -/
def member (j : Json) (key : String) : Json := (j.get? key).getD .null

/-- A member that is a natural number. -/
def natAt (j : Json) (key : String) : Nat := (j.member key).asNat

/-- A member that is an unsigned word. -/
def wordAt (j : Json) (key : String) : UInt64 := (j.member key).asWord

/-- A member that is a text. -/
def textAt (j : Json) (key : String) : String := (j.member key).asText

/-- A member that is a truth value. -/
def boolAt (j : Json) (key : String) : Bool := ((j.member key).bool?).getD false

/-- A member that is a list. -/
def itemsAt (j : Json) (key : String) : List Json := ((j.member key).items?).getD []

/-- A member that is an object. -/
def membersAt (j : Json) (key : String) : List (String × Json) := ((j.member key).members?).getD []

/-- A member that is a list of unsigned words. -/
def wordsAt (j : Json) (key : String) : List UInt64 := (j.itemsAt key).map asWord

/-- A member that is a list of texts. -/
def textsAt (j : Json) (key : String) : List String := (j.itemsAt key).map asText

/-- A member that is an integer. -/
def intAt (j : Json) (key : String) : Int :=
  match j.member key with
  | .num (.int n) => n
  | _ => 0

/-- A member that is an unsigned word or missing. -/
def word? (j : Json) (key : String) : Option UInt64 := (j.member key).nat?.map UInt64.ofNat

end ChainIndex.Json
