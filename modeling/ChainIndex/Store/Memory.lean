import ChainIndex.Store.Basic
import ChainIndex.Store.Table

/-!
# A store in memory

Blocks stand in the order of their numbers.  A lookup answers in the order asked,
and repeats what is asked for twice.

Each kind of write can be made to fail.  A failed write changes nothing.
-/

namespace ChainIndex

/-- A kind of write that can be made to fail. -/
inductive FailPoint where
  /-- Blocks. -/
  | saveBlocks
  /-- Transactions. -/
  | saveTransactions
  /-- Checkpoints. -/
  | saveCheckpoint
  /-- Issues. -/
  | saveIssues
deriving DecidableEq, Repr, Inhabited

namespace FailPoint

/-- The name of a kind of write. -/
def name : FailPoint → String
  | saveBlocks => "SaveBlocks"
  | saveTransactions => "SaveTransactions"
  | saveCheckpoint => "SaveCheckpoint"
  | saveIssues => "SaveIssues"

/-- The kind of write with a name. -/
def ofName? (name : String) : Option FailPoint :=
  [saveBlocks, saveTransactions, saveCheckpoint, saveIssues].find? fun p => p.name == name

end FailPoint

/-- A store in memory. -/
structure MemoryStore where
  /-- Blocks by number. -/
  blocks : Table BlockRow.number := {}
  /-- Transactions by hash. -/
  transactions : Table TransactionRow.hash := {}
  /-- The checkpoint of the index. -/
  indexCheckpoint : Option UInt64 := none
  /-- The checkpoint of the traces. -/
  traceCheckpoint : Option UInt64 := none
  /-- The issues in the order they were added. -/
  log : List Issue := []
  /-- The kinds of writes that fail. -/
  failing : List FailPoint := []
deriving Repr, Inhabited

namespace MemoryStore

/-- A write that fails where its kind was made to. -/
def write {α : Type} (point : FailPoint) (f : MemoryStore → α × MemoryStore) : Action MemoryStore α :=
  fun m =>
    if m.failing.contains point then (.error (.storage ("injected failure: " ++ point.name)), m)
    else
      let (a, m) := f m
      (.ok a, m)

/-- A lookup. -/
def read {α : Type} (f : MemoryStore → α) : Action MemoryStore α := fun m => (.ok (f m), m)

/-- Put the row of a block. -/
def insertBlock (m : MemoryStore) (row : BlockRow) : MemoryStore :=
  { m with blocks := m.blocks.insert row }

/-- Put the row of a transaction. -/
def insertTransaction (m : MemoryStore) (row : TransactionRow) : MemoryStore :=
  { m with transactions := m.transactions.insert row }

/-- The row of a block. -/
def block? (m : MemoryStore) (number : UInt64) : Option BlockRow := m.blocks.get? number

/-- The row of a transaction. -/
def transaction? (m : MemoryStore) (hash : String) : Option TransactionRow := m.transactions.get? hash

/-- The checkpoint of a pipeline. -/
def checkpoint (m : MemoryStore) : CheckpointKind → Option UInt64
  | .index => m.indexCheckpoint
  | .trace => m.traceCheckpoint

/-- The checkpoint of a pipeline raised to a number, or left where it is above. -/
def raise (m : MemoryStore) (kind : CheckpointKind) (number : UInt64) : MemoryStore :=
  let next := match m.checkpoint kind with
    | some old => max old number
    | none => number
  match kind with
  | .index => { m with indexCheckpoint := some next }
  | .trace => { m with traceCheckpoint := some next }

/-- Make a kind of write fail from now on. -/
def failOn (m : MemoryStore) (point : FailPoint) : MemoryStore :=
  { m with failing := point :: m.failing }

/-- Let every write succeed again. -/
def clearFailures (m : MemoryStore) : MemoryStore := { m with failing := [] }

end MemoryStore

instance : Backend MemoryStore where
  getBlocks numbers := MemoryStore.read fun m => numbers.filterMap m.block?
  getBlocksByHashes hashes :=
    MemoryStore.read fun m => m.blocks.rows.filter fun row => hashes.contains row.hash
  saveBlocks new changed := MemoryStore.write .saveBlocks fun m =>
    ((), { m with blocks := m.blocks.insertAll (new ++ changed) })
  getTransactions hashes := MemoryStore.read fun m => hashes.filterMap m.transaction?
  saveTransactions new changed := MemoryStore.write .saveTransactions fun m =>
    ((), { m with transactions := m.transactions.insertAll (new ++ changed) })
  getCheckpoint kind := MemoryStore.read fun m => m.checkpoint kind
  saveCheckpoint kind number := MemoryStore.write .saveCheckpoint fun m => ((), m.raise kind number)
  saveIssues issues := MemoryStore.write .saveIssues fun m =>
    let (added, log) := appendIssues m.log issues
    (added, { m with log := log })
  issues := MemoryStore.read MemoryStore.log
  counts m := (m.blocks.size, m.transactions.size, m.log.length)

end ChainIndex
