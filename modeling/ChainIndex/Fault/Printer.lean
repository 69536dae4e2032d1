import ChainIndex.Fault
import ChainIndex.Json.Basic

/-!
# Faults written down

A fault is written as an object with the name of its kind and its wording, and a
result as an object with the value, or as its fault.
-/

namespace ChainIndex

/-- A fault of a kind. -/
def Json.fault (kind message : String) : Json :=
  Json.object [("error", .str kind), ("message", .str message)]

/-- A value that is there. -/
def Json.ok (v : Json) : Json := Json.object [("ok", v)]

/-- A value or a fault. -/
def Json.ofResult {ε α : Type} (fault : ε → Json) (f : α → Json) : Except ε α → Json
  | .ok a => Json.ok (f a)
  | .error e => fault e

/-- The kind of a fault of the node. -/
def NodeFault.kind : NodeFault → String
  | .unavailable _ => "Unavailable"
  | .transport _ => "Transport"
  | .rpc .. => "Rpc"
  | .decode _ => "Decode"
  | .notFound _ => "NotFound"

/-- A fault of the node. -/
def NodeFault.toJson (f : NodeFault) : Json := Json.fault f.kind f.message

/-- The kind of a fault of an array. -/
def SlotFault.kind : SlotFault → String
  | .alreadyAllocated _ => "AlreadyAllocated"
  | .missing _ => "Missing"
  | .staleHandle .. => "StaleHandle"
  | .outOfBounds .. => "OutOfBounds"
  | .slotTaken .. => "SlotTaken"

/-- A fault of an array. -/
def SlotFault.toJson (f : SlotFault) : Json := Json.fault f.kind f.message

/-- The kind of a fault of the bus. -/
def BusFault.kind : BusFault → String
  | .unknownService _ => "UnknownService"
  | .duplicateService _ => "DuplicateService"
  | .closed => "Closed"
  | .noReply .. => "NoReply"
  | .unexpectedReply .. => "UnexpectedReply"
  | .rejected _ => "Rejected"

/-- A fault of the bus. -/
def BusFault.toJson (f : BusFault) : Json := Json.fault f.kind f.message

/-- The kind of a fault of the crawler. -/
def CrawlFault.kind : CrawlFault → String
  | .node _ => "Rpc"
  | .storage _ => "Storage"
  | .bus _ => "Bus"
  | .config _ => "Config"
  | .io _ => "Io"
  | .windowUnclassifiable .. => "WindowUnclassifiable"
  | .aborted _ => "Aborted"
  | .other _ => "Other"

/-- A fault of the crawler. -/
def CrawlFault.toJson (f : CrawlFault) : Json := Json.fault f.kind f.message

/-- What stopped a task. -/
def Halt.toJson : Halt → Json
  | .fault f => f.toJson
  | .overflow => Json.object [("error", .str "Panic")]

end ChainIndex
