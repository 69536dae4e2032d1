/-!
# Faults

What can go wrong, by where it does.

* `NodeFault`: the node gave no usable answer.  All but `decode` are worth another
  attempt, and `unavailable` costs only half of one.
* `SlotFault`: an array of results is not there, or not the one meant.
* `BusFault`: a message did not reach its service, or its reply was not the one
  wanted.
* `CrawlFault`: a run of the crawler ended.  Only a `storage` fault stops the whole
  crawler.

Each of these has one function `message` for its wording.  A task that a number is too large for
has no words: it stops where it is.  `Halt` has both.
-/

namespace ChainIndex

/-! ## The node -/

/-- Why the node gave no usable answer. -/
inductive NodeFault where
  /-- The node, or what stands in front of it, is down for now. -/
  | unavailable (status : UInt16)
  /-- The connection broke, or the answer was no success. -/
  | transport (reason : String)
  /-- The node answered with an error of its own. -/
  | rpc (code : Int64) (reason : String)
  /-- The answer is not of the expected shape. -/
  | decode (reason : String)
  /-- The node does not have what was asked for. -/
  | notFound (what : String)
deriving DecidableEq, Repr, Inhabited

namespace NodeFault

/-- The wording of a fault. -/
def message : NodeFault → String
  | unavailable status => "upstream unavailable (HTTP " ++ toString status.toNat ++ ")"
  | transport reason => "transport error: " ++ reason
  | rpc code reason => "RPC error " ++ toString code.toInt ++ ": " ++ reason
  | decode reason => "decode error: " ++ reason
  | notFound what => what ++ " not found"

/-- The node is down for now. -/
def isUnavailable : NodeFault → Bool
  | unavailable _ => true
  | _ => false

/-- Another attempt may succeed. -/
def isRetryable : NodeFault → Bool
  | decode _ => false
  | _ => true

end NodeFault

/-! ## Arrays of results -/

/-- Why an array of results cannot be used. -/
inductive SlotFault where
  /-- An array stands under the key already. -/
  | alreadyAllocated (key : String)
  /-- No array stands under the key. -/
  | missing (key : String)
  /-- Another array stands under the key by now. -/
  | staleHandle (key : String) (generation : Nat)
  /-- The array has no such slot. -/
  | outOfBounds (key : String) (index : Nat) (length : Nat)
  /-- The slot has a value. -/
  | slotTaken (key : String) (index : Nat)
deriving DecidableEq, Repr, Inhabited

/-- The wording of a fault. -/
def SlotFault.message : SlotFault → String
  | alreadyAllocated key => "key '" ++ key ++ "' is already allocated"
  | missing key => "key '" ++ key ++ "' is not allocated"
  | staleHandle key generation =>
    "handle for '" ++ key ++ "' is stale (generation " ++ toString generation ++ ")"
  | outOfBounds key index length =>
    "index " ++ toString index ++ " out of bounds for '" ++ key ++ "' (len "
      ++ toString length ++ ")"
  | slotTaken key index =>
    "slot " ++ toString index ++ " of '" ++ key ++ "' was already written"

/-! ## The bus -/

/-- Why a message was of no use. -/
inductive BusFault where
  /-- No service has this name. -/
  | unknownService (service : String)
  /-- A service has this name already. -/
  | duplicateService (service : String)
  /-- The bus has stopped. -/
  | closed
  /-- The message was dropped without a reply. -/
  | noReply (service command : String)
  /-- The reply is of another kind than the command calls for. -/
  | unexpectedReply (command reply : String)
  /-- The service declined or failed. -/
  | rejected (reason : String)
deriving DecidableEq, Repr, Inhabited

/-- The wording of a fault. -/
def BusFault.message : BusFault → String
  | unknownService service => "no service registered under '" ++ service ++ "'"
  | duplicateService service => "service '" ++ service ++ "' is already registered"
  | closed => "bus mailbox is closed"
  | noReply service command => "'" ++ service ++ "' dropped the reply to '" ++ command ++ "'"
  | unexpectedReply command reply => "unexpected reply to '" ++ command ++ "': " ++ reply
  | rejected reason => "request rejected: " ++ reason

/-! ## The crawler -/

/-- Why a run of the crawler ended. -/
inductive CrawlFault where
  /-- The node gave no usable answer. -/
  | node (fault : NodeFault)
  /-- The store did not take or give a value. -/
  | storage (reason : String)
  /-- A message on the bus was of no use. -/
  | bus (reason : String)
  /-- A setting is invalid. -/
  | config (reason : String)
  /-- A file could not be read or written. -/
  | io (reason : String)
  /-- The first block of a window could not be had. -/
  | windowUnclassifiable (first last : UInt64) (reason : String)
  /-- The run was called off. -/
  | aborted (reason : String)
  /-- Anything else. -/
  | other (reason : String)
deriving DecidableEq, Repr, Inhabited

namespace CrawlFault

/-- The wording of a fault. -/
def message : CrawlFault → String
  | node fault => "RPC error: " ++ fault.message
  | storage reason => "Storage error: " ++ reason
  | bus reason => "Bus error: " ++ reason
  | config reason => "Config error: " ++ reason
  | io reason => "I/O error: " ++ reason
  | windowUnclassifiable first last reason =>
    "Window #" ++ toString first.toNat ++ "-" ++ toString last.toNat ++ " cannot be classified: "
      ++ reason
  | aborted reason => "Aborted: " ++ reason
  | other reason => reason

/-- The store is at fault. -/
def isStorage : CrawlFault → Bool
  | storage _ => true
  | _ => false

/-- A fault of the bus ends a run. -/
def ofBus (fault : BusFault) : CrawlFault := bus fault.message

/-- A fault of an array of results ends a run. -/
def ofSlot (fault : SlotFault) : CrawlFault := bus fault.message

end CrawlFault

/-- Why a task stops where it is. -/
inductive Halt where
  /-- Something went wrong, and the caller learns what. -/
  | fault (fault : CrawlFault)
  /-- A sum or a difference is out of the range of its word.  The task breaks off, and the caller
  learns nothing. -/
  | overflow
deriving DecidableEq, Repr, Inhabited

end ChainIndex
