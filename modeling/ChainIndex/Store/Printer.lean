import ChainIndex.Fault.Printer
import ChainIndex.Store.Location

/-!
# Stores written down

What a store holds, as JSON: some of its rows, its issues, its counts and its
checkpoints.
-/

namespace ChainIndex

/-- What is shown of a store. -/
structure Excerpt where
  /-- The numbers of the blocks. -/
  numbers : List UInt64
  /-- The hashes of the transactions. -/
  hashes : List String
  /-- Of a block, only its number, its hash and its duration. -/
  brief : Bool

namespace Store

/-- The result of a lookup. -/
def look {α : Type} (s : Store) (action : Action Store α) : Except CrawlFault α := (action.on s).1

/-- The result of a lookup, written down. -/
def found {α : Type} (s : Store) (f : α → Json) (action : Action Store α) : Json :=
  Json.ofResult CrawlFault.toJson f (s.look action)

/-- The rows of a lookup, or why there are none. -/
def rows {α : Type} (s : Store) (f : α → Json) (action : Action Store (List α)) : Json :=
  match s.look action with
  | .ok rows => Json.list f rows
  | .error fault => fault.toJson

/-- The counts of blocks, transactions and issues. -/
def countsJson (s : Store) : Json :=
  let (blocks, transactions, issues) := Backend.counts s
  Json.list .nat [blocks, transactions, issues]

/-- A checkpoint. -/
def checkpointJson (s : Store) (kind : CheckpointKind) : Json :=
  s.found (Json.ofOption .word) (Backend.getCheckpoint kind)

/-- Rows of transactions in the order of their hashes. -/
def byHash (rows : List TransactionRow) : List TransactionRow :=
  rows.mergeSort fun a b => a.hash ≤ b.hash

/-- The row of a block, or only what a brief excerpt shows of it. -/
def blockJson (brief : Bool) (r : BlockRow) : Json :=
  if brief then .arr [.word r.number, .str r.hash, Json.ofOption .word r.mintDuration] else r.toJson

/-- The members of an excerpt. -/
def excerpt (s : Store) (e : Excerpt) : List (String × Json) := [
  ("blocks", s.rows (blockJson e.brief) (Backend.getBlocks e.numbers)),
  ("txs", s.rows TransactionRow.toJson (do return byHash (← Backend.getTransactions e.hashes))),
  ("issues", s.found (Json.list Issue.evidenceJson) Backend.issues),
  ("counts", s.countsJson),
  ("index", s.checkpointJson .index),
  ("trace", s.checkpointJson .trace)]

end Store

end ChainIndex
