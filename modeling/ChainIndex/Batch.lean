import ChainIndex.Chain.Seal
import ChainIndex.Message
import ChainIndex.Store.Basic
import ChainIndex.Store.Table
import ChainIndex.Window

/-!
# Classifying what was fetched

A batch sorts the results of fetches by what the store already holds.

* A result is *failed* if it has no block, has a fault, or its block is not the one
  asked for.  Each failed result has one issue.
* A block is *new* if its number is not stored, *changed* if the stored row is
  another one, and else left alone.  A changed hash is a reorg, and has an issue.
* A block hash that stands under another number, stored or earlier in the same
  batch, has an issue.
* A transaction hash counts with its last occurrence in the batch.  It is new,
  changed or left alone like a block, and has an issue where it moves to another
  block.

`Batch.prepare` reads the store and writes nothing.  It breaks off where a block is stamped
`2 ^ 63` seconds or more after the block before it.  `Batch.persist` writes issues
first, then blocks, then transactions, so that evidence is on record before what
it is about is overwritten.
-/

namespace ChainIndex

/-- What a classification does beyond block rows. -/
structure ClassifyOptions where
  /-- Recover the signers of blocks. -/
  recoverSigners : Bool
  /-- Classify transactions too. -/
  indexTransactions : Bool
deriving DecidableEq, Repr, Inhabited

/-- What a classification decided. -/
structure Batch where
  /-- The rows of blocks whose number is not stored. -/
  newBlocks : List BlockRow := []
  /-- The rows of blocks that differ from the stored ones. -/
  changedBlocks : List BlockRow := []
  /-- The rows of transactions whose hash is not stored. -/
  newTransactions : List TransactionRow := []
  /-- The rows of transactions that differ from the stored ones. -/
  changedTransactions : List TransactionRow := []
  /-- The transactions of all blocks. -/
  transactions : Nat := 0
  /-- What is odd. -/
  issues : List Issue := []
  /-- The numbers of failed results, in order. -/
  failed : List UInt64 := []
  /-- The blocks whose hash changed. -/
  reorgs : Nat := 0
deriving Repr, Inhabited

namespace Batch

/-- The least number of a failed result. -/
def firstFailed (b : Batch) : Option UInt64 := b.failed.min?

/-- A report with the counts of a batch added, of which `inserted` issues were new
to the log. -/
def tally (b : Batch) (r : BatchReport) (inserted : Nat) : BatchReport :=
  { r with
    newBlocks := r.newBlocks + b.newBlocks.length
    changedBlocks := r.changedBlocks + b.changedBlocks.length
    newTransactions := r.newTransactions + b.newTransactions.length
    changedTransactions := r.changedTransactions + b.changedTransactions.length
    transactions := r.transactions + b.transactions
    issues := r.issues + inserted
    failedBlocks := r.failedBlocks + b.failed.length
    reorgs := r.reorgs + b.reorgs }

/-- A batch with an issue added. -/
def note (b : Batch) (issue : Issue) : Batch := { b with issues := b.issues ++ [issue] }

/-- The issue of a result without a block. -/
def failureIssue (r : BlockResult) : Issue :=
  Issue.failure r.number "" "" ((r.fault.map NodeFault.message).getD "empty result")

/-! ## Sifting results -/

/-- The block of a result, or the issue of a failed one. -/
def sift (r : BlockResult) : Except Issue Block :=
  match r.block, r.fault with
  | some block, none =>
    match block.verify r.number with
    | .ok () => .ok block
    | .error fault => .error (Issue.failure r.number "" "" fault.message)
  | _, _ => .error (failureIssue r)

/-- The row of a block, its duration still open. -/
def rowOf (options : ClassifyOptions) (b : Block) : BlockRow :=
  if options.recoverSigners then Seal.applySigners b (BlockRow.ofBlock b) else BlockRow.ofBlock b

/-- The good blocks of results with their rows, and a batch of the failed ones. -/
def siftAll (options : ClassifyOptions) (results : List BlockResult) :
    List (Block × BlockRow) × Batch :=
  results.foldl (fun (fetched, batch) r =>
    match sift r with
    | .ok block => (fetched ++ [(block, rowOf options block)],
        { batch with transactions := batch.transactions + block.transactions.length })
    | .error issue => (fetched, { batch.note issue with failed := batch.failed ++ [r.number] }))
    ([], {})

/-! ## Blocks -/

/-- What the store and the batch itself say about the blocks of a batch. -/
structure Context where
  /-- The stored row of a number. -/
  storedRow? : UInt64 → Option BlockRow
  /-- The number under which a hash is stored. -/
  owner? : String → Option UInt64
  /-- The rows of the batch. -/
  rows : List BlockRow

namespace Context

/-- What is known from lookups: the stored rows of the numbers and of the numbers before
them, and the stored rows that share a hash with the batch. -/
def ofLookups (stored sharing rows : List BlockRow) : Context where
  storedRow? := lastWith? BlockRow.number stored
  owner? hash := (lastWith? BlockRow.hash sharing hash).map BlockRow.number
  rows := rows

/-- The time of the block before a number, from the batch or else from the store. -/
def parentTime? (c : Context) (number : UInt64) : Option Int64 :=
  if number = 0 then none
  else ((lastWith? BlockRow.number c.rows (number - 1)).or (c.storedRow? (number - 1))).map
    BlockRow.timestamp

/-- The seconds from one time to another, where they are not negative. -/
def secondsBetween (earlier later : Int64) : Option UInt64 :=
  if earlier ≤ later then some (later - earlier).toUInt64 else none

/-- The seconds since the block before, where they are known and not negative. -/
def mintDuration (c : Context) (row : BlockRow) : Option UInt64 :=
  (c.parentTime? row.number).bind fun t => secondsBetween t row.timestamp

/-- The time since the block before, where it is known, is in the range of a time. -/
def TimeFits (c : Context) (row : BlockRow) : Prop :=
  ∀ t ∈ c.parentTime? row.number, row.timestamp.toInt - t.toInt < 0x8000000000000000

instance (c : Context) (row : BlockRow) : Decidable (c.TimeFits row) :=
  Option.decidableForallMem (c.parentTime? row.number)

end Context

/-- A batch under construction. -/
structure Progress where
  /-- The batch so far. -/
  batch : Batch
  /-- The hashes of the blocks so far, each with its last number. -/
  hashes : List (String × UInt64) := []
  /-- The transactions so far, each hash once, with its last row. -/
  transactions : List TransactionRow := []

/-- The issues of a block whose hash stands under another number. -/
def hashIssues (c : Context) (hashes : List (String × UInt64)) (row : BlockRow) : List Issue :=
  let owner := c.owner? row.hash
  let stored := match owner with
    | some n => if n ≠ row.number then [Issue.duplicatedBlockHash row.hash row.number n] else []
    | none => []
  let earlier := match lastWith? Prod.fst hashes row.hash with
    | some (_, n) =>
      if n ≠ row.number && owner ≠ some n then
        [Issue.duplicatedBlockHash row.hash row.number n]
      else []
    | none => []
  stored ++ earlier

/-- The issue of a transaction that moves from one block to another. -/
def movedIssue (old new : TransactionRow) : List Issue :=
  if old.blockNumber ≠ new.blockNumber then
    [Issue.duplicatedTxHash new.hash new.blockNumber new.blockHash old.blockNumber old.blockHash]
  else []

/-- The transaction among some that has the hash of another one. -/
def sameHash? (transactions : List TransactionRow) (tx : TransactionRow) : Option TransactionRow :=
  transactions.find? fun t => t.hash == tx.hash

/-- A transaction put over the one with its hash, or at the end. -/
def putTransaction (transactions : List TransactionRow) (tx : TransactionRow) :
    List TransactionRow :=
  match sameHash? transactions tx with
  | some _ => transactions.map fun t => if t.hash == tx.hash then tx else t
  | none => transactions ++ [tx]

/-- The issue of a transaction that stood in another block so far. -/
def issuesOver (old : Option TransactionRow) (tx : TransactionRow) : List Issue :=
  match old with
  | some old => movedIssue old tx
  | none => []

/-- A transaction of the batch, classified within the batch. -/
def addTransaction (p : Progress) (tx : TransactionRow) : Progress :=
  { p with
    batch := { p.batch with
      issues := p.batch.issues ++ issuesOver (sameHash? p.transactions tx) tx }
    transactions := putTransaction p.transactions tx }

/-- A batch with the row of a block put where it belongs. -/
def place (b : Batch) (stored : Option BlockRow) (row : BlockRow) : Batch :=
  match stored with
  | none => { b with newBlocks := b.newBlocks ++ [row] }
  | some old =>
    if old.hash ≠ row.hash then
      { b.note (Issue.reorg row.number old.hash row.hash) with
        reorgs := b.reorgs + 1
        changedBlocks := b.changedBlocks ++ [row] }
    else if old = row then b
    else { b with changedBlocks := b.changedBlocks ++ [row] }

/-- A block of the batch, classified. -/
def addBlock (c : Context) (options : ClassifyOptions) (p : Progress) (block : Block)
    (row : BlockRow) : Progress :=
  let row := { row with mintDuration := c.mintDuration row }
  let p := { p with
    batch := { p.batch with issues := p.batch.issues ++ hashIssues c p.hashes row }
    hashes := p.hashes ++ [(row.hash, row.number)] }
  let p := if options.indexTransactions then block.transactionRows.foldl addTransaction p else p
  { p with batch := p.batch.place (c.storedRow? row.number) row }

/-- The good blocks of a batch, classified one after the other. -/
def addBlocks (c : Context) (options : ClassifyOptions) (b : Batch)
    (fetched : List (Block × BlockRow)) : Progress :=
  fetched.foldl (fun p (block, row) => addBlock c options p block row) { batch := b }

/-- The numbers to look up for some rows: their own and those before them, in order. -/
def lookupNumbers (rows : List BlockRow) : List UInt64 :=
  let numbers := rows.flatMap fun r => if r.number = 0 then [r.number] else [r.number, r.number - 1]
  (numbers.mergeSort (fun a b => a ≤ b)).eraseReps

/-! ## Transactions -/

/-- A batch with the row of a transaction put where it belongs. -/
def placeTransaction (stored? : String → Option TransactionRow) (b : Batch)
    (tx : TransactionRow) : Batch :=
  match stored? tx.hash with
  | none => { b with newTransactions := b.newTransactions ++ [tx] }
  | some old =>
    if old.blockNumber ≠ tx.blockNumber then
      { b with
        issues := b.issues ++ movedIssue old tx
        changedTransactions := b.changedTransactions ++ [tx] }
    else if old = tx then b
    else { b with changedTransactions := b.changedTransactions ++ [tx] }

/-! ## The whole batch -/

variable {σ : Type} [Backend σ]

/-- Results classified against a store. -/
def prepare (options : ClassifyOptions) (results : List BlockResult) : Checked σ Batch := do
  let (fetched, batch) := siftAll options results
  if fetched.isEmpty then return batch
  let rows := fetched.map (·.2)
  let stored ← (Backend.getBlocks (lookupNumbers rows)).checked
  let sharing ← (Backend.getBlocksByHashes (rows.map BlockRow.hash)).checked
  let context := Context.ofLookups stored sharing rows
  Effect.inRange (∀ row ∈ rows, context.TimeFits row)
  let done := addBlocks context options batch fetched
  if done.transactions.isEmpty then return done.batch
  let known ← (Backend.getTransactions (done.transactions.map TransactionRow.hash)).checked
  return done.transactions.foldl (placeTransaction (lastWith? TransactionRow.hash known)) done.batch

/-- Write the issues of a batch, and how many of them were new to the log. -/
def recordIssues (b : Batch) : Action σ Nat :=
  if b.issues.isEmpty then pure 0 else Backend.saveIssues b.issues

/-- Write the block rows of a batch. -/
def storeBlocks (b : Batch) : Action σ Unit :=
  if b.newBlocks.isEmpty && b.changedBlocks.isEmpty then pure ()
  else Backend.saveBlocks b.newBlocks b.changedBlocks

/-- Write the transaction rows of a batch. -/
def storeTransactions (b : Batch) : Action σ Unit :=
  if b.newTransactions.isEmpty && b.changedTransactions.isEmpty then pure ()
  else Backend.saveTransactions b.newTransactions b.changedTransactions

/-- Write a batch, and how many of its issues were new to the log. -/
def persist (b : Batch) : Action σ Nat := do
  let inserted ← b.recordIssues
  b.storeBlocks
  b.storeTransactions
  return inserted

/-- The issue of a block whose stored hash is another one. -/
def leadingReorg? (first : Block) : Action σ (Option Issue) := do
  let number := first.numberWord
  let hash := first.hashNormalized
  let stored ← Backend.getBlocks [number]
  return (stored.find? fun row => row.number = number && row.hash ≠ hash).map fun row =>
    Issue.reorg number row.hash hash

/-! ## Blocks from elsewhere -/

/-- The result that a block stands for where it was not fetched. -/
def givenResult (b : Block) : BlockResult := ⟨b.numberWord, some b, none, none, 0⟩

/-- The number behind the greatest well-formed number of some blocks, none of which is the greatest
word. -/
def numberBehind (blocks : List Block) : UInt64 :=
  ((blocks.filterMap fun b => b.checkedNumber.toOption.map (· + 1)).max?).getD 0

/-- There is a number behind each well-formed number of some blocks. -/
def NumbersFit (blocks : List Block) : Prop :=
  ∀ b ∈ blocks, b.checkedNumber.toOption ≠ some Window.greatest

instance (blocks : List Block) : Decidable (NumbersFit blocks) :=
  inferInstanceAs (Decidable (∀ b ∈ blocks, _))

/-- Classify and store blocks.  The checkpoint of the index stays. -/
def writeBlocks (options : ClassifyOptions) (blocks : List Block) : Checked σ BatchReport := do
  Effect.inRange (NumbersFit blocks)
  let batch ← prepare options (blocks.map givenResult)
  let inserted ← batch.persist.checked
  return batch.tally { windows := 1, nextBlock := numberBehind blocks } inserted

end Batch

end ChainIndex
