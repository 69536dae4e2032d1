import ChainIndex.Batch
import ChainIndex.Proofs.Store.Following
import ChainIndex.Proofs.Store.View

/-!
# A store whose index checkpoints are watched

A `Watched` store keeps the numbers that were saved as checkpoint of the index, next to a store that
does all the work.  A store keeps the greater of two checkpoints, so the numbers that were passed to
it cannot be read off its content.

It answers what the store in it answers (`Around`), and is as lawful.  Nothing but a checkpoint of
the index adds a number: whatever else a program does is `Unwatched`.
-/

namespace ChainIndex

variable {σ : Type} [Backend σ]

open LawfulBackend

/-- A store with the numbers that were saved as checkpoint of the index, oldest first. -/
structure Watched (σ : Type) where
  store : σ
  saves : List UInt64 := []

namespace Watched

variable {α β : Type}

/-! ## Operations -/

/-- An operation of the store that adds some numbers where it succeeds. -/
def noting (numbers : List UInt64) (action : Action σ α) : Action (Watched σ) α := fun w =>
  match action.on w.store with
  | (.ok a, s) => (.ok a, ⟨s, w.saves ++ numbers⟩)
  | (.error fault, s) => (.error fault, ⟨s, w.saves⟩)

/-- The numbers to note for a checkpoint. -/
def noted (kind : CheckpointKind) (number : UInt64) : List UInt64 :=
  match kind with
  | .index => [number]
  | .trace => []

instance : Backend (Watched σ) where
  getBlocks numbers := noting [] (Backend.getBlocks numbers)
  getBlocksByHashes hashes := noting [] (Backend.getBlocksByHashes hashes)
  saveBlocks new changed := noting [] (Backend.saveBlocks new changed)
  getTransactions hashes := noting [] (Backend.getTransactions hashes)
  saveTransactions new changed := noting [] (Backend.saveTransactions new changed)
  getCheckpoint kind := noting [] (Backend.getCheckpoint kind)
  saveCheckpoint kind number := noting (noted kind number) (Backend.saveCheckpoint kind number)
  saveIssues issues := noting [] (Backend.saveIssues issues)
  issues := noting [] Backend.issues
  counts w := Backend.counts w.store

section Noting

variable {numbers : List UInt64} {action : Action σ α} {w : Watched σ} {a : α} {s : σ}

omit [Backend σ]

theorem noting_ok (h : action.on w.store = (.ok a, s)) :
    (noting numbers action).on w = (.ok a, ⟨s, w.saves ++ numbers⟩) := by
  rw [Effect.on, noting, h]

theorem noting_error {fault : CrawlFault} (h : action.on w.store = (.error fault, s)) :
    (noting numbers action).on w = (.error fault, ⟨s, w.saves⟩) := by
  rw [Effect.on, noting, h]

/-- A lookup leaves the store and the numbers as they are. -/
theorem noting_lookup (h : action.on w.store = (.ok a, w.store)) :
    (noting [] action).on w = (.ok a, w) := by
  rw [noting_ok h, List.append_nil]

theorem follows_noting (numbers : List UInt64) (action : Action σ α) :
    Follows store (noting numbers action) action := by
  intro w
  rcases done : action.on w.store with ⟨_ | a, s⟩
  · rw [noting_error done]
    exact ⟨rfl, rfl⟩
  · rw [noting_ok done]
    exact ⟨rfl, rfl⟩

end Noting

instance : Around (Watched σ) σ where
  inner := store
  getBlocks _ := follows_noting [] _
  getBlocksByHashes _ := follows_noting [] _
  saveBlocks _ _ := follows_noting [] _
  getTransactions _ := follows_noting [] _
  saveTransactions _ _ := follows_noting [] _
  getCheckpoint _ := follows_noting [] _
  saveCheckpoint kind number := follows_noting (noted kind number) _
  saveIssues _ := follows_noting [] _

/-! ## Laws -/

section Laws

variable [LawfulBackend σ]

theorem holder?_eq (w : Watched σ) : Backend.holder? w = Backend.holder? w.store := by
  funext hash
  obtain ⟨rows, found, _⟩ := getBlocksByHashes_on w.store [hash]
  have same : (Backend.getBlocksByHashes [hash]).on w = (.ok rows, w) := noting_lookup found
  rw [Backend.holder?, Backend.holder?, found, same]

theorem writes {numbers : List UInt64} {action : Action σ α} {w : Watched σ} {a : α} {after : View}
    (h : Writes view Sturdy action w.store a after) :
    Writes (fun w : Watched σ => view w.store) (fun w => Sturdy w.store) (noting numbers action) w a
      after := by
  rcases h with ⟨s', done, left, sturdy, holder⟩ | ⟨frail, reason, fails⟩
  · refine .inl ⟨_, noting_ok done, left, sturdy, ?_⟩
    rw [holder?_eq, holder?_eq]
    exact holder
  · exact .inr ⟨frail, reason, noting_error fails⟩

instance : LawfulBackend (Watched σ) where
  view w := view w.store
  Sturdy w := Sturdy w.store
  raised w := raised w.store
  block_number := block_number
  transaction_hash := transaction_hash
  raised_eq w := raised_eq w.store
  getBlocks_on w numbers :=
    (getBlocks_on w.store numbers).imp fun _ h => ⟨noting_lookup h.1, h.2⟩
  getBlocksByHashes_on w hashes := by
    obtain ⟨rows, found, mem, holder⟩ := getBlocksByHashes_on w.store hashes
    rw [holder?_eq]
    exact ⟨rows, noting_lookup found, mem, holder⟩
  getTransactions_on w hashes :=
    (getTransactions_on w.store hashes).imp fun _ h => ⟨noting_lookup h.1, h.2⟩
  getCheckpoint_on w kind := noting_lookup (getCheckpoint_on w.store kind)
  saveBlocks_on w new changed := writes (saveBlocks_on w.store new changed)
  saveTransactions_on w new changed := writes (saveTransactions_on w.store new changed)
  saveCheckpoint_on w kind n := writes (saveCheckpoint_on w.store kind n)
  saveIssues_on w issues := writes (saveIssues_on w.store issues)

end Laws

/-! ## Programs that save no checkpoint of the index -/

/-- A program adds no number. -/
def Unwatched (action : Action (Watched σ) α) : Prop := ∀ w, (action.on w).2.saves = w.saves

namespace Unwatched

omit [Backend σ]

theorem noting (action : Action σ α) : Unwatched (Watched.noting [] action) := by
  intro w
  rcases done : action.on w.store with ⟨_ | a, s⟩
  · rw [noting_error done]
  · rw [noting_ok done, List.append_nil]

theorem pure (a : α) : Unwatched (Pure.pure a : Action (Watched σ) α) := fun _ => rfl

theorem bind {action : Action (Watched σ) α} {next : α → Action (Watched σ) β}
    (h : Unwatched action) (hnext : ∀ a, Unwatched (next a)) : Unwatched (action >>= next) := by
  intro w
  have left := h w
  rw [Effect.on_bind]
  rcases done : action.on w with ⟨_ | a, w'⟩
  · rw [done] at left
    exact left
  · rw [done] at left
    exact (hnext a w').trans left

theorem ite {p : Prop} [Decidable p] {action other : Action (Watched σ) α} (yes : Unwatched action)
    (no : Unwatched other) : Unwatched (if p then action else other) := by
  split
  case isTrue => exact yes
  case isFalse => exact no

end Unwatched

/-- Nothing that a batch writes is a checkpoint. -/
theorem unwatched_persist (b : Batch) : Unwatched (b.persist : Action (Watched σ) Nat) := by
  have issues : Unwatched (b.recordIssues : Action (Watched σ) Nat) := .ite (.pure 0) (.noting _)
  have blocks : Unwatched (b.storeBlocks : Action (Watched σ) Unit) := .ite (.pure ()) (.noting _)
  have transactions : Unwatched (b.storeTransactions : Action (Watched σ) Unit) :=
    .ite (.pure ()) (.noting _)
  exact .bind issues fun inserted => .bind blocks fun _ => .bind transactions fun _ =>
    .pure inserted

/-- A checkpoint of the index that is saved adds its number. -/
theorem saves_saveCheckpoint {w w' : Watched σ} {number : UInt64}
    (h : (Backend.saveCheckpoint .index number).on w = (.ok (), w')) :
    w'.saves = w.saves ++ [number] := by
  have watched : (Backend.saveCheckpoint .index number : Action (Watched σ) Unit) =
      Watched.noting [number] (Backend.saveCheckpoint .index number) := rfl
  rw [watched] at h
  rcases done : (Backend.saveCheckpoint .index number).on w.store with ⟨_ | _, s⟩
  · rw [noting_error done] at h
    cases h
  · rw [noting_ok done] at h
    cases h
    rfl

end Watched

end ChainIndex
