import ChainIndex.Fault
import ChainIndex.Json.Fields

/-!
# Faults read

A fault is read from an object with the name of its kind and its parts.  Texts stand
under `a` and `b`, numbers under `i` and `l`; a fault of the node has parts with names of
their own.  A kind that is unknown reads as one that is named here last.
-/

namespace ChainIndex

/-- A fault of the node. -/
def NodeFault.ofJson (j : Json) : NodeFault :=
  match j.textAt "kind" with
  | "Unavailable" => .unavailable (UInt16.ofNat (j.natAt "status"))
  | "Rpc" => .rpc (Int64.ofInt (j.intAt "code")) (j.textAt "message")
  | "Decode" => .decode (j.textAt "message")
  | "NotFound" => .notFound (j.textAt "what")
  | _ => .transport (j.textAt "message")

/-- A fault of the node, none where the value is `null`. -/
def NodeFault.ofJson? : Json → Option NodeFault
  | .null => none
  | j => some (NodeFault.ofJson j)

/-- A fault of an array. -/
def SlotFault.ofJson (j : Json) : SlotFault :=
  let key := j.textAt "a"
  match j.textAt "kind" with
  | "AlreadyAllocated" => .alreadyAllocated key
  | "StaleHandle" => .staleHandle key (j.natAt "i")
  | "OutOfBounds" => .outOfBounds key (j.natAt "i") (j.natAt "l")
  | "SlotTaken" => .slotTaken key (j.natAt "i")
  | _ => .missing key

/-- A fault of the bus. -/
def BusFault.ofJson (j : Json) : BusFault :=
  let first := j.textAt "a"
  match j.textAt "kind" with
  | "UnknownService" => .unknownService first
  | "DuplicateService" => .duplicateService first
  | "NoReply" => .noReply first (j.textAt "b")
  | "UnexpectedReply" => .unexpectedReply first (j.textAt "b")
  | "Rejected" => .rejected first
  | _ => .closed

/-- A fault of the crawler that is not one of the node. -/
def CrawlFault.ofJson (j : Json) : CrawlFault :=
  let reason := j.textAt "a"
  match j.textAt "kind" with
  | "Storage" => .storage reason
  | "Bus" => .bus reason
  | "Config" => .config reason
  | "Io" => .io reason
  | "WindowUnclassifiable" => .windowUnclassifiable (j.wordAt "i") (j.wordAt "l") reason
  | "Aborted" => .aborted reason
  | _ => .other reason

end ChainIndex
