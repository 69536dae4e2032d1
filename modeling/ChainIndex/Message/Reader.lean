import ChainIndex.Chain.Sample
import ChainIndex.Fault.Reader
import ChainIndex.Message

/-!
# Messages read

A command is read from an object with its name and its parameters, a reply from one
with its kind.  A part that is missing reads as a blank value.  A name that no command
has is an exit, and a kind that no reply has is an acknowledgement.
-/

namespace ChainIndex

/-- Texts with their numbers, each a list of the two. -/
def Json.numberedTexts (items : List Json) : List (UInt64 × String) :=
  items.map fun item =>
    match item with
    | .arr (number :: text :: _) => (number.asWord, text.asText)
    | _ => (0, "")

/-- The order of an index run. -/
def IndexOrder.ofJson (j : Json) : IndexOrder :=
  ⟨j.wordAt "from", j.word? "to", j.wordAt "batch_size", j.boolAt "use_checkpoint"⟩

/-- The order of a download run. -/
def DownloadOrder.ofJson (j : Json) : DownloadOrder :=
  ⟨j.wordAt "from", j.wordAt "to", j.wordAt "batch_size", j.textAt "root", j.boolAt "use_checkpoint"⟩

/-- A command. -/
def Command.ofJson (j : Json) : Command :=
  let request := j.textAt "request_id"
  let files := Json.numberedTexts (j.itemsAt "items")
  match j.textAt "name" with
  | "get_block" => .getBlock (j.wordAt "number")
  | "get_block_number" => .getHead
  | "get_blocks" => .getBlocks request (j.wordsAt "numbers")
  | "get_blocks_range" => .getRange request (j.wordAt "from") (j.wordAt "to")
  | "trace_block" => .traceBlock (j.wordAt "number")
  | "trace_blocks_range" => .traceRange request (j.wordAt "from") (j.wordAt "to")
  | "trace_transaction" => .traceTransaction (j.textAt "hash")
  | "index" => .index (IndexOrder.ofJson j)
  | "download_blocks" => .downloadBlocks (DownloadOrder.ofJson j)
  | "download_block_traces" => .downloadTraces (DownloadOrder.ofJson j)
  | "write_block_files" => .writeBlockFiles (j.textAt "root") files
  | "write_trace_files" => .writeTraceFiles (j.textAt "root") files
  | "write_blocks" => .writeBlocks (Sample.blocks (j.itemsAt "blocks"))
  | "set_worker" => .setWorkers (j.textAt "service_id") (UInt16.ofNat (j.natAt "count"))
  | _ => .exit

/-- The outcome of fetching a block.  The number is that of the block where none is given. -/
def BlockResult.ofJson (j : Json) : BlockResult :=
  let block := match j.member "block" with
    | .null => none
    | b => (Sample.block b).toOption
  ⟨(j.word? "number").getD ((block.map Block.numberWord).getD 0), block, (j.member "raw").text?,
    NodeFault.ofJson? (j.member "error"), UInt32.ofNat (j.natAt "retries")⟩

/-- A reply.  Its number stands under `n`, its text under `message`. -/
def Reply.ofJson (j : Json) : Reply :=
  let n := j.wordAt "n"
  let handle : SlotHandle := ⟨j.textAt "key", 1, j.natAt "n"⟩
  let report : BatchReport := { windows := 1, nextBlock := n }
  match j.textAt "variant" with
  | "Block" => .block (BlockResult.ofJson j)
  | "BlockNumber" => .head ⟨some n, none⟩
  | "BlocksReady" => .blocksReady handle
  | "TracesReady" => .tracesReady handle
  | "Trace" =>
    .trace ⟨n, (j.member "traces").items?, none, NodeFault.ofJson? (j.member "error"), 0⟩
  | "TransactionTrace" => .transactionTrace ⟨j.textAt "message", none, none⟩
  | "Indexed" => .indexed report
  | "Persisted" => .persisted report
  | "Downloaded" => .downloaded { written := j.natAt "n" }
  | "Written" => .written (j.natAt "n")
  | "Rejected" => .rejected (j.textAt "message")
  | "Failed" => .failed (j.textAt "message")
  | _ => .ack

end ChainIndex
