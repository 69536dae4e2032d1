import ChainIndex.Fault.Printer
import ChainIndex.Message

/-!
# Results and replies written down

Results, reports and replies as JSON.
-/

namespace ChainIndex

/-- The summary of the outcome of fetching a block. -/
def BlockResult.summary (r : BlockResult) : Json :=
  Json.object [
    ("number", .word r.number),
    ("ok", .bool r.isOk),
    ("retries", .nat r.retries.toNat),
    ("hash", Json.ofOption .str (r.block.map Block.hashNormalized)),
    ("error", Json.ofOption NodeFault.toJson r.fault)]

/-- The outcome of fetching a block. -/
def BlockResult.toJson (r : BlockResult) : Json :=
  Json.object [
    ("number", .word r.number),
    ("ok", .bool r.isOk),
    ("retries", .nat r.retries.toNat),
    ("block", Json.ofOption Block.toJson r.block),
    ("raw", Json.ofOption .str r.raw),
    ("error", Json.ofOption NodeFault.toJson r.fault)]

/-- The outcome of tracing a block. -/
def TraceResult.toJson (r : TraceResult) : Json :=
  Json.object [
    ("number", .word r.number),
    ("ok", .bool r.isOk),
    ("retries", .nat r.retries.toNat),
    ("traces", Json.ofOption .arr r.traces),
    ("raw", Json.ofOption .str r.raw),
    ("error", Json.ofOption NodeFault.toJson r.fault)]

/-- The report of what was stored. -/
def BatchReport.toJson (r : BatchReport) : Json :=
  Json.object [
    ("windows", .nat r.windows),
    ("new_blocks", .nat r.newBlocks),
    ("changed_blocks", .nat r.changedBlocks),
    ("new_transactions", .nat r.newTransactions),
    ("changed_transactions", .nat r.changedTransactions),
    ("transactions", .nat r.transactions),
    ("issues", .nat r.issues),
    ("failed_blocks", .nat r.failedBlocks),
    ("reorgs", .nat r.reorgs),
    ("next_block", .word r.nextBlock)]

/-- The report of what was downloaded. -/
def DownloadReport.toJson (r : DownloadReport) : Json :=
  Json.object [
    ("windows", .nat r.windows),
    ("written", .nat r.written),
    ("failed", .nat r.failed),
    ("next_block", .word r.nextBlock)]

/-- The members of a reply.  For an array of results, `results` is what it holds. -/
def Reply.members (results : Json) : Reply → List (String × Json)
  | .ack => []
  | .block r => [("result", r.toJson)]
  | .head r => [("number", Json.ofOption .word r.number), ("error", Json.ofOption NodeFault.toJson r.fault)]
  | .blocksReady h => [("key", .str h.key), ("len", .nat h.length), ("results", results)]
  | .tracesReady h => [("key", .str h.key), ("len", .nat h.length), ("results", results)]
  | .trace r => [("result", r.toJson)]
  | .transactionTrace r =>
    [("hash", .str r.hash), ("trace", r.trace.getD .null), ("error", Json.ofOption NodeFault.toJson r.fault)]
  | .indexed r => [("report", r.toJson)]
  | .persisted r => [("report", r.toJson)]
  | .downloaded r => [("report", r.toJson)]
  | .written files => [("files", .nat files)]
  | .rejected reason => [("message", .str reason)]
  | .failed reason => [("message", .str reason)]

/-- A reply with its kind. -/
def Reply.toJson (results : Json) (r : Reply) : Json :=
  Json.object (("reply", .str r.variant) :: r.members results)

end ChainIndex
