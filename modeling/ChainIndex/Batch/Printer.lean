import ChainIndex.Batch

/-!
# Batches written down

A batch as JSON: its rows in order, its issues, and its counts.
-/

namespace ChainIndex

/-- A batch. -/
def Batch.toJson (b : Batch) : Json :=
  Json.object [
    ("new_blocks", Json.list BlockRow.toJson b.newBlocks),
    ("changed_blocks", Json.list BlockRow.toJson b.changedBlocks),
    ("new_transactions", Json.list TransactionRow.toJson b.newTransactions),
    ("changed_transactions", Json.list TransactionRow.toJson b.changedTransactions),
    ("transactions", .nat b.transactions),
    ("issues", Json.list Issue.evidenceJson b.issues),
    ("failed", Json.list .word b.failed),
    ("first_failed", Json.ofOption .word b.firstFailed),
    ("reorgs", .nat b.reorgs)]

end ChainIndex
