import ChainIndex.Store.Basic
import ChainIndex.Store.Columns
import ChainIndex.Store.Table

/-!
# A store of signed columns

The tables of this store are those of a database whose integers are signed words of
64 bits.  A number from `2 ^ 63` on is negative, sorts before all others, and is the
lesser one where the greater of two is taken.

A lookup is split into chunks of `SignedStore.chunk` keys.  Each chunk answers its
rows once, blocks in the order of their signed numbers.  The rows of the table of
issues are `SignedStore.issueRows`; a lookup of the issues fails where one of them
cannot be read.
-/

namespace ChainIndex

/-- A store of signed columns. -/
structure SignedStore where
  /-- Blocks by signed number. -/
  blocks : Table BlockColumns.number := {}
  /-- Transactions by hash. -/
  transactions : Table TransactionColumns.hash := {}
  /-- The checkpoint of the index. -/
  indexCheckpoint : Option Int64 := none
  /-- The checkpoint of the traces. -/
  traceCheckpoint : Option Int64 := none
  /-- The issues that were added, in their order. -/
  log : List Issue := []
deriving Repr, Inhabited

namespace SignedStore

/-- The most keys of one lookup. -/
def chunk : Nat := 500

/-- A lookup. -/
def read {α : Type} (f : SignedStore → α) : Action SignedStore α := fun m => (.ok (f m), m)

/-- A write. -/
def write {α : Type} (f : SignedStore → α × SignedStore) : Action SignedStore α := fun m =>
  let (a, m) := f m
  (.ok a, m)

/-- The checkpoint of a pipeline. -/
def checkpoint (m : SignedStore) : CheckpointKind → Option Int64
  | .index => m.indexCheckpoint
  | .trace => m.traceCheckpoint

/-- The greater of two signed words. -/
def greater (a b : Int64) : Int64 := if a < b then b else a

/-- The checkpoint of a pipeline raised to a number, or left where it is above. -/
def raise (m : SignedStore) (kind : CheckpointKind) (number : Int64) : SignedStore :=
  let next := match m.checkpoint kind with
    | some old => greater old number
    | none => number
  match kind with
  | .index => { m with indexCheckpoint := some next }
  | .trace => { m with traceCheckpoint := some next }

/-- The rows of the table of issues. -/
def issueRows (m : SignedStore) : List IssueColumns := m.log.map IssueColumns.ofIssue

end SignedStore

instance : Backend SignedStore where
  getBlocks numbers := SignedStore.read fun m =>
    (chunksOf SignedStore.chunk numbers).flatMap fun part =>
      let keys := part.map UInt64.toInt64
      (m.blocks.rows.filter fun columns => keys.contains columns.number).map BlockColumns.row
  getBlocksByHashes hashes := SignedStore.read fun m =>
    (chunksOf SignedStore.chunk hashes).flatMap fun part =>
      (m.blocks.rows.filter fun columns => part.contains columns.hash).map BlockColumns.row
  saveBlocks new changed := SignedStore.write fun m =>
    ((), { m with blocks := m.blocks.insertAll ((new ++ changed).map BlockColumns.ofRow) })
  getTransactions hashes := SignedStore.read fun m =>
    (chunksOf SignedStore.chunk hashes).flatMap fun part =>
      (m.transactions.rows.filter fun columns => part.contains columns.hash).map
        TransactionColumns.row
  saveTransactions new changed := SignedStore.write fun m =>
    let columns := (new ++ changed).map TransactionColumns.ofRow
    ((), { m with transactions := m.transactions.insertAll columns })
  getCheckpoint kind := SignedStore.read fun m => (m.checkpoint kind).map Int64.toUInt64
  saveCheckpoint kind number := SignedStore.write fun m => ((), m.raise kind number.toInt64)
  saveIssues issues := SignedStore.write fun m =>
    let (added, log) := appendIssues m.log issues
    (added, { m with log := log })
  issues := fun m => (m.issueRows.mapM IssueColumns.issue, m)
  counts m := (m.blocks.size, m.transactions.size, m.log.length)

end ChainIndex
