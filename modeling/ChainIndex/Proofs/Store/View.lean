import ChainIndex.Store.Basic
import ChainIndex.Store.Table

/-!
# What a store holds

A `View` is the content of a store, read key by key.  `LawfulBackend` says what each
operation of a store does in terms of its view.

* A lookup succeeds and changes nothing.  It answers the rows that are asked for, and
  no others.  Their order and their repetition are left open.
* A write succeeds and changes the view as it should, or fails and changes nothing.  In
  a `Sturdy` store no write fails.
* A checkpoint that is saved is the new number or the one that stood there before.

All theorems on batches and index runs speak of any lawful store.  A store may answer
several rows that share a hash.  `Backend.holder?` is the number of the last of them,
the only one that a classification looks at.
-/

namespace ChainIndex

/-! ## Views -/

/-- The content of a store. -/
@[ext] structure View where
  /-- The row of a block number. -/
  block? : UInt64 → Option BlockRow
  /-- The row of a transaction hash. -/
  transaction? : String → Option TransactionRow
  /-- The checkpoint of a pipeline. -/
  checkpoint? : CheckpointKind → Option UInt64
  /-- The issues in the order they were added. -/
  log : List Issue

namespace View

/-- A store without rows, checkpoints and issues. -/
def empty : View := ⟨fun _ => none, fun _ => none, fun _ => none, []⟩

/-- Rows of blocks put one after the other. -/
def putBlocks (v : View) (rows : List BlockRow) : View :=
  { v with block? := fun n => (lastWith? BlockRow.number rows n).or (v.block? n) }

/-- Rows of transactions put one after the other. -/
def putTransactions (v : View) (rows : List TransactionRow) : View :=
  { v with transaction? := fun h => (lastWith? TransactionRow.hash rows h).or (v.transaction? h) }

/-- A checkpoint set to a number. -/
def setCheckpoint (v : View) (kind : CheckpointKind) (number : UInt64) : View :=
  { v with checkpoint? := fun k => if k = kind then some number else v.checkpoint? k }

/-- Issues added, skipping those on record. -/
def addIssues (v : View) (issues : List Issue) : View :=
  { v with log := (appendIssues v.log issues).2 }

end View

/-! ## Laws of a store -/

/-- The number that a store names for a hash: that of the last row which a lookup of the
hash answers. -/
def Backend.holder? {σ : Type} [Backend σ] (s : σ) (hash : String) : Option UInt64 :=
  match (Backend.getBlocksByHashes [hash] : Action σ (List BlockRow)).on s with
  | (.ok rows, _) => (lastWith? BlockRow.hash rows hash).map BlockRow.number
  | (.error _, _) => none

/-- A write answers `a` and leaves a store that looks like `after`, or it fails and changes
nothing.  Where the rows of blocks stay the same, so do the numbers that are named for
hashes. -/
def Writes {σ α : Type} [Backend σ] (view : σ → View) (Sturdy : σ → Prop) (action : Action σ α)
    (s : σ) (a : α) (after : View) : Prop :=
  (∃ s', action.on s = (.ok a, s') ∧ view s' = after ∧ (Sturdy s → Sturdy s') ∧
      (after.block? = (view s).block? → Backend.holder? s' = Backend.holder? s)) ∨
    (¬ Sturdy s ∧ ∃ reason, action.on s = (.error (.storage reason), s))

theorem Writes.of_sturdy {σ α : Type} [Backend σ] {view : σ → View} {Sturdy : σ → Prop}
    {action : Action σ α} {s : σ} {a : α} {after : View} (h : Writes view Sturdy action s a after)
    (hs : Sturdy s) : ∃ s', action.on s = (.ok a, s') ∧ view s' = after ∧ Sturdy s' := by
  rcases h with ⟨s', done, hview, sturdy, _⟩ | ⟨frail, _⟩
  · exact ⟨s', done, hview, sturdy hs⟩
  · exact absurd hs frail

/-- A store whose operations are lookups in its view and changes of it. -/
class LawfulBackend (σ : Type) [Backend σ] where
  /-- What a store holds. -/
  view : σ → View
  /-- No write fails. -/
  Sturdy : σ → Prop
  /-- The checkpoint that stands after a number is saved. -/
  raised : σ → CheckpointKind → UInt64 → UInt64
  block_number {s : σ} {n : UInt64} {row : BlockRow} :
    (view s).block? n = some row → row.number = n
  transaction_hash {s : σ} {h : String} {tx : TransactionRow} :
    (view s).transaction? h = some tx → tx.hash = h
  raised_eq (s : σ) (kind : CheckpointKind) (n : UInt64) :
    raised s kind n = n ∨ (view s).checkpoint? kind = some (raised s kind n)
  getBlocks_on (s : σ) (numbers : List UInt64) :
    ∃ rows, (Backend.getBlocks numbers).on s = (.ok rows, s) ∧
      ∀ row, row ∈ rows ↔ row.number ∈ numbers ∧ (view s).block? row.number = some row
  getBlocksByHashes_on (s : σ) (hashes : List String) :
    ∃ rows, (Backend.getBlocksByHashes hashes).on s = (.ok rows, s) ∧
      (∀ row, row ∈ rows ↔ row.hash ∈ hashes ∧ (view s).block? row.number = some row) ∧
      ∀ h ∈ hashes, (lastWith? BlockRow.hash rows h).map BlockRow.number = Backend.holder? s h
  getTransactions_on (s : σ) (hashes : List String) :
    ∃ rows, (Backend.getTransactions hashes).on s = (.ok rows, s) ∧
      ∀ tx, tx ∈ rows ↔ tx.hash ∈ hashes ∧ (view s).transaction? tx.hash = some tx
  getCheckpoint_on (s : σ) (kind : CheckpointKind) :
    (Backend.getCheckpoint kind).on s = (.ok ((view s).checkpoint? kind), s)
  saveBlocks_on (s : σ) (new changed : List BlockRow) :
    Writes view Sturdy (Backend.saveBlocks new changed) s () ((view s).putBlocks (new ++ changed))
  saveTransactions_on (s : σ) (new changed : List TransactionRow) :
    Writes view Sturdy (Backend.saveTransactions new changed) s ()
      ((view s).putTransactions (new ++ changed))
  saveCheckpoint_on (s : σ) (kind : CheckpointKind) (n : UInt64) :
    Writes view Sturdy (Backend.saveCheckpoint kind n) s ()
      ((view s).setCheckpoint kind (raised s kind n))
  saveIssues_on (s : σ) (issues : List Issue) :
    Writes view Sturdy (Backend.saveIssues issues) s (appendIssues (view s).log issues).1
      ((view s).addIssues issues)

end ChainIndex
