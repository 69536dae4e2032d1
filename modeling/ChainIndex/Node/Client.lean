import ChainIndex.Chain.Block
import ChainIndex.Node.Wire

/-!
# Asking a node

Each of four questions is one request.  `Client.request` writes it, and the readers
turn what came back into an answer.  A status of the server's own that says it is
down for now is `unavailable`, any other failure `transport`.  A result `null`
means that the node does not have what was asked for.

A client numbers its requests from one.
-/

namespace ChainIndex

/-- What came back from the server of a node. -/
inductive Exchange where
  /-- Nothing, and why. -/
  | broken (reason : String)
  /-- A status and a body. -/
  | answered (status : UInt16) (body : String)
deriving DecidableEq, Repr, Inhabited

/-- A question to a node. -/
inductive Question where
  /-- The block with a number. -/
  | block (number : UInt64)
  /-- The number of the newest block. -/
  | head
  /-- The traces of a block. -/
  | traces (number : UInt64)
  /-- The trace of a transaction. -/
  | transaction (hash : String)
  /-- Any method. -/
  | plain (method : String) (params : List Json)
deriving Repr, Inhabited

namespace Question

/-- The method of a question. -/
def method : Question → String
  | block _ => "eth_getBlockByNumber"
  | head => "eth_blockNumber"
  | traces _ => "debug_traceBlockByNumber"
  | transaction _ => "debug_traceTransaction"
  | plain method _ => method

/-- The parameter that asks for nested calls. -/
def callTracer : Json := .obj [("tracer", .str "callTracer")]

/-- The parameters of a question. -/
def params : Question → List Json
  | block number => [.str (Hex.ofNat number.toNat), .bool true]
  | head => []
  | traces number => [.str (Hex.ofNat number.toNat), callTracer]
  | transaction hash => [.str hash, callTracer]
  | plain _ params => params

end Question

/-- A client of a node. -/
structure Client where
  /-- The address of the node. -/
  url : String
  /-- The identity of the next request. -/
  nextId : UInt64 := 1
deriving Repr, Inhabited

/-- The request of a question, and the client behind it. -/
def Client.request (c : Client) (q : Question) : Wire.Request × Client :=
  (⟨.number c.nextId, q.method, q.params⟩, { c with nextId := c.nextId + 1 })

namespace Exchange

/-- The fault of a status that is no success. -/
def statusFault (status : UInt16) (body : String) : NodeFault :=
  if status = 502 || status = 503 then .unavailable status
  else .transport ("HTTP " ++ toString status.toNat ++ ": " ++ body)

/-- The result of a call. -/
def result (e : Exchange) (method : String) : Except NodeFault Json :=
  match e with
  | broken reason => .error (.transport reason)
  | answered status body =>
    if 200 ≤ status && status < 300 then
      match Wire.Response.ofText body with
      | .ok response => response.value
      | .error m => .error (.decode (method ++ ": " ++ m.message))
    else .error (statusFault status body)

/-- The result of a call that is not `null`. -/
def present (e : Exchange) (method what : String) : Except NodeFault Json := do
  match ← e.result method with
  | .null => throw (.notFound what)
  | v => return v

/-- The block with a number, and its text. -/
def block (e : Exchange) (number : UInt64) : Except NodeFault (Block × String) := do
  let what := "block " ++ toString number.toNat
  let v ← e.present (Question.block number).method what
  match Block.ofJson v with
  | .error m => throw (.decode (what ++ ": " ++ m.message))
  | .ok b =>
    b.verify number
    return (b, v.render)

/-- The number of the newest block. -/
def head (e : Exchange) : Except NodeFault UInt64 := do
  match ← e.result Question.head.method with
  | .str s =>
    match Hex.word64? s with
    | some n => return n
    | none => throw (.decode ("eth_blockNumber returned '" ++ s ++ "'"))
  | other => throw (.decode ("eth_blockNumber returned " ++ other.render))

/-- The traces of a block, and their text. -/
def traces (e : Exchange) (number : UInt64) : Except NodeFault (List Json × String) := do
  let what := "traces of block " ++ toString number.toNat
  let v ← e.present (Question.traces number).method what
  match v with
  | .arr items => return (items, v.render)
  | other => throw (.decode (what ++ ": expected array, got " ++ other.render))

/-- The trace of a transaction. -/
def transactionTrace (e : Exchange) (hash : String) : Except NodeFault Json :=
  e.present (Question.transaction hash).method ("trace of transaction " ++ hash)

end Exchange

end ChainIndex
