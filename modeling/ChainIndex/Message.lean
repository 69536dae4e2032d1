import ChainIndex.Chain.Block
import ChainIndex.SlotCache

/-!
# Messages

A `Command` asks a service for something, and a `Reply` answers it.  Every command
and every reply has parameters of its own type.

A fetch never fails as such: its result carries the block or the fault.  A range of
blocks is answered by the handle of the array that holds the results.

`Reply.slotHandle` and its siblings take from a reply what the command calls for.
A reply that declines or fails becomes `rejected`, any other one
`unexpectedReply`.
-/

namespace ChainIndex

/-! ## Commands -/

/-- What to index. -/
structure IndexOrder where
  /-- The first block, unless a checkpoint says otherwise. -/
  first : UInt64
  /-- The last block, none to follow the head. -/
  last : Option UInt64
  /-- The most blocks of a window. -/
  batchSize : UInt64
  /-- Resume from the checkpoint. -/
  useCheckpoint : Bool
deriving DecidableEq, Repr, Inhabited

/-- What to download. -/
structure DownloadOrder where
  /-- The first block. -/
  first : UInt64
  /-- The last block. -/
  last : UInt64
  /-- The most blocks of a window. -/
  batchSize : UInt64
  /-- The directory above all files written. -/
  root : String
  /-- Resume from the checkpoint of traces and advance it. -/
  useCheckpoint : Bool
deriving DecidableEq, Repr, Inhabited

/-- A unit of work for a service. -/
inductive Command where
  /-- Fetch a block. -/
  | getBlock (number : UInt64)
  /-- Fetch the number of the newest block. -/
  | getHead
  /-- Fetch the blocks with these numbers. -/
  | getBlocks (request : String) (numbers : List UInt64)
  /-- Fetch a range of blocks. -/
  | getRange (request : String) (first last : UInt64)
  /-- Trace a block. -/
  | traceBlock (number : UInt64)
  /-- Trace a range of blocks. -/
  | traceRange (request : String) (first last : UInt64)
  /-- Trace a transaction. -/
  | traceTransaction (hash : String)
  /-- Index blocks. -/
  | index (order : IndexOrder)
  /-- Write the raw text of blocks to files. -/
  | downloadBlocks (order : DownloadOrder)
  /-- Write the raw text of traces to files. -/
  | downloadTraces (order : DownloadOrder)
  /-- Write texts of blocks, each with its number. -/
  | writeBlockFiles (root : String) (items : List (UInt64 × String))
  /-- Write texts of traces, each with its number. -/
  | writeTraceFiles (root : String) (items : List (UInt64 × String))
  /-- Classify and store blocks. -/
  | writeBlocks (blocks : List Block)
  /-- Scale a service. -/
  | setWorkers (service : String) (count : UInt16)
  /-- Stop. -/
  | exit
deriving Repr, Inhabited

/-- The name of a command. -/
def Command.name : Command → String
  | .getBlock _ => "get_block"
  | .getHead => "get_block_number"
  | .getBlocks .. => "get_blocks"
  | .getRange .. => "get_blocks_range"
  | .traceBlock _ => "trace_block"
  | .traceRange .. => "trace_blocks_range"
  | .traceTransaction _ => "trace_transaction"
  | .index _ => "index"
  | .downloadBlocks _ => "download_blocks"
  | .downloadTraces _ => "download_block_traces"
  | .writeBlockFiles .. => "write_block_files"
  | .writeTraceFiles .. => "write_trace_files"
  | .writeBlocks _ => "write_blocks"
  | .setWorkers .. => "set_worker"
  | .exit => "exit"

/-! ## Results -/

/-- The outcome of fetching a block. -/
structure BlockResult where
  /-- The number asked for. -/
  number : UInt64
  /-- The block. -/
  block : Option Block
  /-- The text that the node sent. -/
  raw : Option String
  /-- Why there is no block. -/
  fault : Option NodeFault
  /-- The retries used up. -/
  retries : UInt32
deriving DecidableEq, Repr, Inhabited

/-- There is a block and no fault. -/
def BlockResult.isOk (r : BlockResult) : Bool := r.fault.isNone && r.block.isSome

/-- The outcome of fetching the number of the newest block. -/
structure HeadResult where
  /-- The number. -/
  number : Option UInt64
  /-- Why there is no number. -/
  fault : Option NodeFault
deriving DecidableEq, Repr, Inhabited

/-- The outcome of tracing a block. -/
structure TraceResult where
  /-- The number asked for. -/
  number : UInt64
  /-- The traces. -/
  traces : Option (List Json)
  /-- The text that the node sent. -/
  raw : Option String
  /-- Why there are no traces. -/
  fault : Option NodeFault
  /-- The retries used up. -/
  retries : UInt32
deriving Repr, Inhabited

/-- There are traces and no fault. -/
def TraceResult.isOk (r : TraceResult) : Bool := r.fault.isNone && r.traces.isSome

/-- The outcome of tracing a transaction. -/
structure TransactionTraceResult where
  /-- The hash asked for. -/
  hash : String
  /-- The trace. -/
  trace : Option Json
  /-- Why there is no trace. -/
  fault : Option NodeFault
deriving Repr, Inhabited

/-! ## Reports -/

/-- What was stored, summed over windows. -/
structure BatchReport where
  /-- The count of windows stored. -/
  windows : Nat := 0
  /-- The blocks whose number was new. -/
  newBlocks : Nat := 0
  /-- The blocks whose row changed. -/
  changedBlocks : Nat := 0
  /-- The transactions whose hash was new. -/
  newTransactions : Nat := 0
  /-- The transactions whose row changed. -/
  changedTransactions : Nat := 0
  /-- The transactions of all blocks fetched. -/
  transactions : Nat := 0
  /-- The issues added to the log. -/
  issues : Nat := 0
  /-- The blocks that could not be fetched. -/
  failedBlocks : Nat := 0
  /-- The blocks whose hash changed. -/
  reorgs : Nat := 0
  /-- Where the next run resumes. -/
  nextBlock : UInt64 := 0
deriving DecidableEq, Repr, Inhabited

/-- What was written to files, summed over windows. -/
structure DownloadReport where
  /-- The count of windows written. -/
  windows : Nat := 0
  /-- The files written. -/
  written : Nat := 0
  /-- The blocks that could not be fetched. -/
  failed : Nat := 0
  /-- Where the next run resumes. -/
  nextBlock : UInt64 := 0
deriving DecidableEq, Repr, Inhabited

/-! ## Replies -/

/-- The answer to a command. -/
inductive Reply where
  /-- It is done. -/
  | ack
  /-- A block. -/
  | block (result : BlockResult)
  /-- The number of the newest block. -/
  | head (result : HeadResult)
  /-- The blocks stand in an array. -/
  | blocksReady (handle : SlotHandle)
  /-- The traces of a block. -/
  | trace (result : TraceResult)
  /-- The traces stand in an array. -/
  | tracesReady (handle : SlotHandle)
  /-- The trace of a transaction. -/
  | transactionTrace (result : TransactionTraceResult)
  /-- An index run ended. -/
  | indexed (report : BatchReport)
  /-- Blocks were stored. -/
  | persisted (report : BatchReport)
  /-- A download ended. -/
  | downloaded (report : DownloadReport)
  /-- Files were written. -/
  | written (files : Nat)
  /-- The service declined. -/
  | rejected (reason : String)
  /-- The service failed. -/
  | failed (reason : String)
deriving Repr, Inhabited

namespace Reply

/-- The name of the kind of a reply. -/
def variant : Reply → String
  | ack => "Ack"
  | block _ => "Block"
  | head _ => "BlockNumber"
  | blocksReady _ => "BlocksReady"
  | trace _ => "Trace"
  | tracesReady _ => "TracesReady"
  | transactionTrace _ => "TransactionTrace"
  | indexed _ => "Indexed"
  | persisted _ => "Persisted"
  | downloaded _ => "Downloaded"
  | written _ => "Written"
  | rejected _ => "Rejected"
  | failed _ => "Failed"

/-- The fault of a reply that is not what the command calls for. -/
def unexpected (reply : Reply) (command : String) : BusFault :=
  match reply with
  | rejected reason => .rejected reason
  | failed reason => .rejected reason
  | other => .unexpectedReply command other.variant

/-- The handle of an array of results. -/
def slotHandle (reply : Reply) (command : String) : Except BusFault SlotHandle :=
  match reply with
  | blocksReady h => .ok h
  | tracesReady h => .ok h
  | other => .error (other.unexpected command)

/-- The number of the newest block. -/
def headResult (reply : Reply) (command : String) : Except BusFault HeadResult :=
  match reply with
  | head r => .ok r
  | other => .error (other.unexpected command)

/-- A block. -/
def blockResult (reply : Reply) (command : String) : Except BusFault BlockResult :=
  match reply with
  | block r => .ok r
  | other => .error (other.unexpected command)

/-- The traces of a block. -/
def traceResult (reply : Reply) (command : String) : Except BusFault TraceResult :=
  match reply with
  | trace r => .ok r
  | other => .error (other.unexpected command)

/-- The report of what was stored. -/
def batchReport (reply : Reply) (command : String) : Except BusFault BatchReport :=
  match reply with
  | indexed r => .ok r
  | persisted r => .ok r
  | other => .error (other.unexpected command)

/-- The report of what was downloaded. -/
def downloadReport (reply : Reply) (command : String) : Except BusFault DownloadReport :=
  match reply with
  | downloaded r => .ok r
  | other => .error (other.unexpected command)

/-- The count of files written. -/
def filesWritten (reply : Reply) (command : String) : Except BusFault Nat :=
  match reply with
  | written files => .ok files
  | other => .error (other.unexpected command)

end Reply

end ChainIndex
