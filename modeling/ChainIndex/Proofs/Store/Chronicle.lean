import ChainIndex.Proofs.Store.Following
import ChainIndex.Proofs.Store.View

/-!
# The history of a store

A `Chronicle` is a store that remembers what it held before each write.  It answers what the
store in it answers, so a program on a chronicle does what it does on the store alone
(`Around`), and it is as lawful as that store.

Each write is one step of the history: it is done as a whole, or it fails and leaves no trace.
-/

namespace ChainIndex

variable {σ : Type} [Backend σ] [LawfulBackend σ]

open LawfulBackend

/-- A store with the contents it had before each of its writes, newest first. -/
structure Chronicle (σ : Type) where
  store : σ
  past : List View := []

namespace Chronicle

/-- All contents so far, newest first. -/
def history (w : Chronicle σ) : List View := view w.store :: w.past

/-! ## Operations -/

variable {α β : Type}

/-- An operation that changes nothing. -/
def reading (action : Action σ α) : Action (Chronicle σ) α := fun w =>
  let (answer, s) := action.on w.store
  (answer, ⟨s, w.past⟩)

/-- An operation that is remembered where it succeeds. -/
def writing (action : Action σ α) : Action (Chronicle σ) α := fun w =>
  match action.on w.store with
  | (.ok a, s) => (.ok a, ⟨s, w.history⟩)
  | (.error fault, s) => (.error fault, ⟨s, w.past⟩)

instance : Backend (Chronicle σ) where
  getBlocks numbers := reading (Backend.getBlocks numbers)
  getBlocksByHashes hashes := reading (Backend.getBlocksByHashes hashes)
  saveBlocks new changed := writing (Backend.saveBlocks new changed)
  getTransactions hashes := reading (Backend.getTransactions hashes)
  saveTransactions new changed := writing (Backend.saveTransactions new changed)
  getCheckpoint kind := reading (Backend.getCheckpoint kind)
  saveCheckpoint kind number := writing (Backend.saveCheckpoint kind number)
  saveIssues issues := writing (Backend.saveIssues issues)
  issues := reading Backend.issues
  counts w := Backend.counts w.store

/-! ## A chronicle follows its store -/

omit [Backend σ] [LawfulBackend σ] in
theorem reading_ok {action : Action σ α} {w : Chronicle σ} {a : α}
    (h : action.on w.store = (.ok a, w.store)) : (reading action).on w = (.ok a, w) := by
  rw [Effect.on, reading, h]

theorem writing_ok {action : Action σ α} {w : Chronicle σ} {a : α} {s : σ}
    (h : action.on w.store = (.ok a, s)) : (writing action).on w = (.ok a, ⟨s, w.history⟩) := by
  rw [Effect.on, writing, h]

theorem writing_error {action : Action σ α} {w : Chronicle σ} {fault : CrawlFault}
    (h : action.on w.store = (.error fault, w.store)) :
    (writing action).on w = (.error fault, w) := by
  rw [Effect.on, writing, h]

omit [Backend σ] [LawfulBackend σ] in
theorem follows_reading (action : Action σ α) : Follows store (reading action) action :=
  fun _ => ⟨rfl, rfl⟩

theorem follows_writing (action : Action σ α) : Follows store (writing action) action := by
  intro w
  have said : (writing action).on w = match action.on w.store with
    | (.ok a, s) => (.ok a, ⟨s, w.history⟩)
    | (.error fault, s) => (.error fault, ⟨s, w.past⟩) := rfl
  rw [said]
  split
  case h_1 h => rw [h]; exact ⟨rfl, rfl⟩
  case h_2 h => rw [h]; exact ⟨rfl, rfl⟩

instance : Around (Chronicle σ) σ where
  inner := store
  getBlocks _ := follows_reading _
  getBlocksByHashes _ := follows_reading _
  saveBlocks _ _ := follows_writing _
  getTransactions _ := follows_reading _
  saveTransactions _ _ := follows_writing _
  getCheckpoint _ := follows_reading _
  saveCheckpoint _ _ := follows_writing _
  saveIssues _ := follows_writing _

/-! ## Laws -/

theorem holder?_eq (w : Chronicle σ) : Backend.holder? w = Backend.holder? w.store := by
  funext hash
  obtain ⟨rows, found, _⟩ := getBlocksByHashes_on w.store [hash]
  have same : (Backend.getBlocksByHashes [hash]).on w = (.ok rows, w) := reading_ok found
  rw [Backend.holder?, Backend.holder?, found, same]

theorem writes {action : Action σ α} {w : Chronicle σ} {a : α} {after : View}
    (h : Writes view Sturdy action w.store a after) :
    Writes (fun w : Chronicle σ => view w.store) (fun w => Sturdy w.store) (writing action) w a
      after := by
  rcases h with ⟨s', done, left, sturdy, holder⟩ | ⟨frail, reason, fails⟩
  · refine .inl ⟨_, writing_ok done, left, sturdy, ?_⟩
    rw [holder?_eq, holder?_eq]
    exact holder
  · exact .inr ⟨frail, reason, writing_error fails⟩

instance : LawfulBackend (Chronicle σ) where
  view w := view w.store
  Sturdy w := Sturdy w.store
  raised w := raised w.store
  block_number := block_number
  transaction_hash := transaction_hash
  raised_eq w := raised_eq w.store
  getBlocks_on w numbers := (getBlocks_on w.store numbers).imp fun _ h => ⟨reading_ok h.1, h.2⟩
  getBlocksByHashes_on w hashes := by
    obtain ⟨rows, found, mem, holder⟩ := getBlocksByHashes_on w.store hashes
    rw [holder?_eq]
    exact ⟨rows, reading_ok found, mem, holder⟩
  getTransactions_on w hashes :=
    (getTransactions_on w.store hashes).imp fun _ h => ⟨reading_ok h.1, h.2⟩
  getCheckpoint_on w kind := reading_ok (getCheckpoint_on w.store kind)
  saveBlocks_on w new changed := writes (saveBlocks_on w.store new changed)
  saveTransactions_on w new changed := writes (saveTransactions_on w.store new changed)
  saveCheckpoint_on w kind n := writes (saveCheckpoint_on w.store kind n)
  saveIssues_on w issues := writes (saveIssues_on w.store issues)

end Chronicle

end ChainIndex
