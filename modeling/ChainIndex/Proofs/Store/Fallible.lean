import ChainIndex.Proofs.Store.Lawful

/-!
# Stores whose calls may fail

In a `FallibleBackend` every call may fail, lookups too, and any number of times.  A call that fails
ends with a fault of the store and leaves the content as it was.  A call that succeeds does to the
content what it should.  The state of such a store is more than its content, so that whether a call
fails may depend on anything.

Every lawful store is one.  `Interrupted` is another: a lawful store with a plan of the calls that
fail.
-/

namespace ChainIndex

open LawfulBackend

/-- A call answers what it should and leaves the content that it should, or it ends with a fault of
the store and leaves the content as it was. -/
def Attempts {σ α : Type} (content : σ → View) (action : Action σ α) (s : σ)
    (good : α → View → Prop) : Prop :=
  (∃ a s', action.on s = (.ok a, s') ∧ good a (content s')) ∨
    ∃ reason s', action.on s = (.error (.storage reason), s') ∧ content s' = content s

/-- A store whose calls may fail. -/
class FallibleBackend (σ : Type) [Backend σ] where
  /-- What a store holds. -/
  content : σ → View
  block_number {s : σ} {n : UInt64} {row : BlockRow} :
    (content s).block? n = some row → row.number = n
  getBlocks_on (s : σ) (numbers : List UInt64) :
    Attempts content (Backend.getBlocks numbers) s fun rows left => left = content s ∧
      ∀ row, row ∈ rows ↔ row.number ∈ numbers ∧ (content s).block? row.number = some row
  getBlocksByHashes_on (s : σ) (hashes : List String) :
    Attempts content (Backend.getBlocksByHashes hashes) s fun rows left => left = content s ∧
      ∀ row, row ∈ rows ↔ row.hash ∈ hashes ∧ (content s).block? row.number = some row
  getTransactions_on (s : σ) (hashes : List String) :
    Attempts content (Backend.getTransactions hashes) s fun rows left => left = content s ∧
      ∀ tx, tx ∈ rows ↔ tx.hash ∈ hashes ∧ (content s).transaction? tx.hash = some tx
  getCheckpoint_on (s : σ) (kind : CheckpointKind) :
    Attempts content (Backend.getCheckpoint kind) s fun number left => left = content s ∧
      number = (content s).checkpoint? kind
  saveBlocks_on (s : σ) (new changed : List BlockRow) :
    Attempts content (Backend.saveBlocks new changed) s fun _ left =>
      left = (content s).putBlocks (new ++ changed)
  saveTransactions_on (s : σ) (new changed : List TransactionRow) :
    Attempts content (Backend.saveTransactions new changed) s fun _ left =>
      left = (content s).putTransactions (new ++ changed)
  saveCheckpoint_on (s : σ) (kind : CheckpointKind) (n : UInt64) :
    Attempts content (Backend.saveCheckpoint kind n) s fun _ left =>
      ∃ raised, (raised = n ∨ (content s).checkpoint? kind = some raised) ∧
        left = (content s).setCheckpoint kind raised
  saveIssues_on (s : σ) (issues : List Issue) :
    Attempts content (Backend.saveIssues issues) s fun count left =>
      count = (appendIssues (content s).log issues).1 ∧ left = (content s).addIssues issues

namespace Attempts

variable {σ α : Type} {content : σ → View} {action : Action σ α} {s : σ} {good : α → View → Prop}

theorem of_ok {a : α} {s' : σ} (done : action.on s = (.ok a, s')) (h : good a (content s')) :
    Attempts content action s good := .inl ⟨a, s', done, h⟩

/-- A lawful write is attempted. -/
theorem of_writes [Backend σ] [LawfulBackend σ] {a : α} {after : View}
    (h : Writes view Sturdy action s a after) (hgood : good a after) :
    Attempts view action s good := by
  rcases h with ⟨s', done, left, _, _⟩ | ⟨_, reason, fails⟩
  · exact .of_ok done (left ▸ hgood)
  · exact .inr ⟨reason, s, fails, rfl⟩

end Attempts

/-- A lawful store answers every lookup. -/
instance {σ : Type} [Backend σ] [LawfulBackend σ] : FallibleBackend σ where
  content := view
  block_number := block_number
  getBlocks_on s numbers := by
    obtain ⟨rows, found, mem⟩ := getBlocks_on s numbers
    exact .of_ok found ⟨rfl, mem⟩
  getBlocksByHashes_on s hashes := by
    obtain ⟨rows, found, mem, _⟩ := getBlocksByHashes_on s hashes
    exact .of_ok found ⟨rfl, mem⟩
  getTransactions_on s hashes := by
    obtain ⟨rows, found, mem⟩ := getTransactions_on s hashes
    exact .of_ok found ⟨rfl, mem⟩
  getCheckpoint_on s kind := .of_ok (getCheckpoint_on s kind) ⟨rfl, rfl⟩
  saveBlocks_on s new changed := .of_writes (saveBlocks_on s new changed) rfl
  saveTransactions_on s new changed := .of_writes (saveTransactions_on s new changed) rfl
  saveCheckpoint_on s kind n :=
    .of_writes (saveCheckpoint_on s kind n) ⟨_, raised_eq s kind n, rfl⟩
  saveIssues_on s issues := .of_writes (saveIssues_on s issues) ⟨rfl, rfl⟩

/-! ## Interrupted stores -/

/-- A store with a plan of its next calls: the reason of each that fails, nothing for each that is
carried out.  Behind the plan all calls are carried out. -/
structure Interrupted (σ : Type) where
  store : σ
  plan : List (Option String) := []

namespace Interrupted

variable {σ α : Type}

/-- A call that fails where the plan says so. -/
def call (action : Action σ α) : Action (Interrupted σ) α := fun w =>
  match w.plan with
  | some reason :: rest => (.error (.storage reason), ⟨w.store, rest⟩)
  | plan =>
    let (answer, s) := action.on w.store
    (answer, ⟨s, plan.tail⟩)

instance [Backend σ] : Backend (Interrupted σ) where
  getBlocks numbers := call (Backend.getBlocks numbers)
  getBlocksByHashes hashes := call (Backend.getBlocksByHashes hashes)
  saveBlocks new changed := call (Backend.saveBlocks new changed)
  getTransactions hashes := call (Backend.getTransactions hashes)
  saveTransactions new changed := call (Backend.saveTransactions new changed)
  getCheckpoint kind := call (Backend.getCheckpoint kind)
  saveCheckpoint kind number := call (Backend.saveCheckpoint kind number)
  saveIssues issues := call (Backend.saveIssues issues)
  issues := call Backend.issues
  counts w := Backend.counts w.store

/-- A call that is attempted on the store is attempted where it may be interrupted. -/
theorem attempts_call {content : σ → View} {action : Action σ α} {w : Interrupted σ}
    {good : α → View → Prop} (h : Attempts content action w.store good) :
    Attempts (fun w : Interrupted σ => content w.store) (call action) w good := by
  obtain ⟨s, plan⟩ := w
  rcases plan with _ | ⟨_ | reason, rest⟩
  case cons.some => exact .inr ⟨reason, ⟨s, rest⟩, rfl, rfl⟩
  all_goals
    rcases h with ⟨a, s', done, left⟩ | ⟨reason, s', fails, left⟩
    · exact .inl ⟨a, ⟨s', _⟩, congrArg (fun o => (o.1, Interrupted.mk o.2 _)) done, left⟩
    · exact .inr ⟨reason, ⟨s', _⟩, congrArg (fun o => (o.1, Interrupted.mk o.2 _)) fails, left⟩

open FallibleBackend

instance [Backend σ] [FallibleBackend σ] : FallibleBackend (Interrupted σ) where
  content w := content w.store
  block_number := block_number
  getBlocks_on w numbers := attempts_call (getBlocks_on w.store numbers)
  getBlocksByHashes_on w hashes := attempts_call (getBlocksByHashes_on w.store hashes)
  getTransactions_on w hashes := attempts_call (getTransactions_on w.store hashes)
  getCheckpoint_on w kind := attempts_call (getCheckpoint_on w.store kind)
  saveBlocks_on w new changed := attempts_call (saveBlocks_on w.store new changed)
  saveTransactions_on w new changed := attempts_call (saveTransactions_on w.store new changed)
  saveCheckpoint_on w kind n := attempts_call (saveCheckpoint_on w.store kind n)
  saveIssues_on w issues := attempts_call (saveIssues_on w.store issues)

end Interrupted

end ChainIndex
