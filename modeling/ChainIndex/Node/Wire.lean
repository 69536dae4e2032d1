import ChainIndex.Fault
import ChainIndex.Json.Record

/-!
# Messages between client and node

A request names a method, gives its parameters and carries an identity.  A response
carries the identity and either a result or an error.  An error wins over a result,
and neither of them stands for the result `null`.
-/

namespace ChainIndex.Wire

/-- The identity of a request. -/
inductive Identity where
  /-- A number. -/
  | number (n : UInt64)
  /-- A text. -/
  | text (s : String)
  /-- Unknown to the node. -/
  | unknown
deriving DecidableEq, Repr, Inhabited

/-- An identity as JSON. -/
def Identity.toJson : Identity → Json
  | .number n => .word n
  | .text s => .str s
  | .unknown => .null

/-- An identity of a source. -/
def Identity.read (s : Source) : Except Mismatch Identity := do
  let v ← s.readAny
  match v with
  | .num (.int n) =>
    if 0 ≤ n ∧ n < UInt64.size then return .number (UInt64.ofNat n.toNat)
    else throw (.noAlternative "RpcId")
  | .str t => return .text t
  | .null => return .unknown
  | _ => throw (.noAlternative "RpcId")

/-- A request. -/
structure Request where
  /-- Its identity. -/
  id : Identity
  /-- The method. -/
  method : String
  /-- The parameters in order. -/
  params : List Json
deriving Repr, Inhabited

/-- A request as JSON. -/
def Request.toJson (r : Request) : Json :=
  .obj [("jsonrpc", .str "2.0"), ("method", .str r.method), ("params", .arr r.params),
    ("id", r.id.toJson)]

/-- An error of the node. -/
structure ErrorObject where
  /-- Its code. -/
  code : Int64 := 0
  /-- What it says. -/
  message : String := ""
  /-- More about it. -/
  data : Option Json := none
deriving Repr, Inhabited

/-- Any value but `null`. -/
def readSome (s : Source) : Except Mismatch (Option Json) :=
  match s with
  | .null => .ok none
  | other => other.readAny.map some

/-- The record of an error. -/
def ErrorObject.shape : Shape ErrorObject where
  title := "JsonRpcError"
  blank := {}
  slots := [
    .of "code" .required Source.readSigned fun a r => { r with code := a },
    .of "message" .required Source.readText fun a r => { r with message := a },
    .of "data" .optionalByName readSome fun a r => { r with data := a }]

/-- An error as JSON, what is missing left out. -/
def ErrorObject.toJson (e : ErrorObject) : Json :=
  .obj ([("code", .int e.code.toInt), ("message", .str e.message)]
    ++ (e.data.map fun d => ("data", d)).toList)

/-- A response. -/
structure Response where
  /-- The version that the node names. -/
  version : String := ""
  /-- The identity of the request. -/
  id : Identity := .unknown
  /-- The result, where there is one. -/
  result : Option Json := none
  /-- The error, where there is one. -/
  error : Option ErrorObject := none
deriving Repr, Inhabited

namespace Response

/-- The record of a response in a text. -/
def shape : Shape Response where
  title := "JsonRpcResponse"
  blank := {}
  slots := [
    .of "jsonrpc" .required Source.readText fun a r => { r with version := a },
    .of "id" .required Identity.read fun a r => { r with id := a },
    .of "result" .optional readSome fun a r => { r with result := a },
    .of "error" .optional (Source.readOption (ErrorObject.shape.read .text))
      fun a r => { r with error := a }]

/-- The response of a text. -/
def ofText (s : String) : Except Mismatch Response := readText (shape.read .text) s

/-- A response as JSON, what is missing left out. -/
def toJson (r : Response) : Json :=
  .obj ([("jsonrpc", .str r.version), ("id", r.id.toJson)]
    ++ (r.result.map fun v => ("result", v)).toList
    ++ (r.error.map fun e => ("error", e.toJson)).toList)

/-- The result of a response. -/
def value (r : Response) : Except NodeFault Json :=
  match r.error with
  | some e => .error (.rpc e.code e.message)
  | none => .ok (r.result.getD .null)

end Response

end ChainIndex.Wire
