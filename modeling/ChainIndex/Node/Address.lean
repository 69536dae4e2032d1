import ChainIndex.Node.Script
import ChainIndex.Store.Location

/-!
# Addresses of nodes

A node is called at an address of the form `scheme://host:number/path`.  A message names
the address in its normal form: scheme and host in lower case, without the number that
the scheme implies and without a user, and with a path, which is `/` where none is
given.

`Script.unreachable` is the node at an address where nothing answers.
-/

namespace ChainIndex

namespace NodeAddress

/-- The schemes in which a node can be called, each with the number that it implies. -/
def schemes : List (String × String) := [("http", "80"), ("https", "443")]

/-- The scheme of an address and the text behind its colon. -/
def scheme? (url : String) : Option (String × String) :=
  match url.splitOn ":" with
  | name :: rest@(_ :: _) =>
    let cs := name.toList
    let isFirst := (cs.head?.map Char.isAlpha).getD false
    if isFirst && cs.all fun c => c.isAlphanum || c = '+' || c = '-' || c = '.' then
      some (Hex.lower name, ":".intercalate rest)
    else none
  | _ => none

/-- A character that ends the host and its number. -/
def endsHost (c : Char) : Bool := c = '/' || c = '?' || c = '#'

/-- The host of a text and the number behind it, without the user before them. -/
def hostAndNumber (authority : String) : String × Option String :=
  let place := ((authority.splitOn "@").getLast?).getD authority
  match (place.splitOn ":").reverse with
  | number :: host@(_ :: _) =>
    if number.any (· = ']') then (place, none) else (":".intercalate host.reverse, some number)
  | _ => (place, none)

/-- A number that can stand behind a host, or none given. -/
def isHostNumber (number : Option String) : Bool :=
  match number with
  | none => true
  | some digits => digits.all Char.isDigit && (digits.isEmpty || (digits.toNat?.getD 65536) < 65536)

/-- The digits of a number without zeros in front, none where the scheme implies it. -/
def numberText (usual : String) (number : Option String) : String :=
  match number.bind String.toNat? with
  | none => ""
  | some n => if toString n = usual then "" else ":" ++ toString n

/-- The normal form of an address behind the slashes of its scheme. -/
def normal? (name usual rest : String) : Option String :=
  let cs := rest.toList
  let (host, number) := hostAndNumber (String.ofList (cs.takeWhile (!endsHost ·)))
  let path := cs.dropWhile (!endsHost ·)
  let path := if path.head? = some '/' then path else '/' :: path
  if host.isEmpty || !isHostNumber number then none
  else some (name ++ "://" ++ Hex.lower host ++ numberText usual number ++ String.ofList path)

/-- Why a call to an address fails where nothing answers. -/
def failure (url : String) : String :=
  let url := url.trimAscii.toString
  match scheme? url with
  | none => "builder error"
  | some (name, rest) =>
    match schemes.find? fun s => s.1 = name with
    | none => "builder error for url (" ++ url ++ ")"
    | some (_, usual) =>
      match normal? name usual (Location.behindAll "/" rest) with
      | none => "builder error"
      | some address => "error sending request for url (" ++ address ++ ")"

end NodeAddress

/-- The node at an address where nothing answers. -/
def Script.unreachable (url : String) : Script :=
  { down := some (.transport (NodeAddress.failure url)) }

end ChainIndex
