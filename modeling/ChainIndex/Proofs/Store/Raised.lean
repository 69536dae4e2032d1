import ChainIndex.Proofs.Store.Interchange
import ChainIndex.Proofs.Store.Watched

/-!
# Checkpoints that are raised

A store that is given a checkpoint keeps the greater of it and the one that stands, in the order
that the store has.  In memory that is the order of all words.  Signed columns agree with it on
small numbers.

What was given cannot be read off the store then.  A `TraceWatched` store keeps the numbers that
were saved as checkpoint of traces, as a `Watched` one does for the index.
-/

namespace ChainIndex

open LawfulBackend

/-- A store that keeps the greater of two checkpoints, among the numbers that it has in order. -/
class RaisingBackend (σ : Type) [Backend σ] [LawfulBackend σ] where
  /-- A number that the store has in order. -/
  Ordered : UInt64 → Prop
  raised_of_ordered {s : σ} {kind : CheckpointKind} {n : UInt64} (ordered : Ordered n)
    (stands : ∀ c, (view s).checkpoint? kind = some c → Ordered c) :
    raised s kind n = (view s).raised kind n

/-- All words are in order. -/
instance : RaisingBackend MemoryStore where
  Ordered _ := True
  raised_of_ordered _ _ := rfl

/-- Small words are in order. -/
instance : RaisingBackend SignedStore where
  Ordered := Small
  raised_of_ordered small stands := SignedStore.raised_of_small small stands

/-- Small words are in order, whatever the kind of the store. -/
instance : RaisingBackend Store where
  Ordered := Small
  raised_of_ordered {s _ _} small stands := match s with
    | .memory _ => rfl
    | .signed _ => SignedStore.raised_of_small small stands

/-- A checkpoint that stands below a number is raised to it. -/
theorem View.raised_of_le {v : View} {kind : CheckpointKind} {n : UInt64}
    (stands : ∀ c, v.checkpoint? kind = some c → c ≤ n) : v.raised kind n = n := by
  rw [raised]
  cases found : v.checkpoint? kind with
  | none => rfl
  | some c => exact if_pos (stands c found)

/-! ## Watched checkpoints of traces -/

/-- A store with the numbers that were saved as checkpoint of traces, oldest first. -/
def TraceWatched (σ : Type) : Type := Watched σ

namespace TraceWatched

variable {σ α : Type}

/-- The store that does the work. -/
def store (w : TraceWatched σ) : σ := Watched.store w

/-- The numbers that were saved. -/
def saves (w : TraceWatched σ) : List UInt64 := Watched.saves w

/-- A store with some numbers. -/
def mk (s : σ) (saves : List UInt64) : TraceWatched σ := Watched.mk s saves

/-- An operation of the store that adds some numbers where it succeeds. -/
def noting (numbers : List UInt64) (action : Action σ α) : Action (TraceWatched σ) α :=
  Watched.noting numbers action

theorem follows_noting (numbers : List UInt64) (action : Action σ α) :
    Follows store (noting numbers action) action :=
  Watched.follows_noting numbers action

/-- The numbers to note for a checkpoint. -/
def noted (kind : CheckpointKind) (number : UInt64) : List UInt64 :=
  match kind with
  | .index => []
  | .trace => [number]

variable [Backend σ]

instance : Backend (TraceWatched σ) where
  getBlocks numbers := noting [] (Backend.getBlocks numbers)
  getBlocksByHashes hashes := noting [] (Backend.getBlocksByHashes hashes)
  saveBlocks new changed := noting [] (Backend.saveBlocks new changed)
  getTransactions hashes := noting [] (Backend.getTransactions hashes)
  saveTransactions new changed := noting [] (Backend.saveTransactions new changed)
  getCheckpoint kind := noting [] (Backend.getCheckpoint kind)
  saveCheckpoint kind number := noting (noted kind number) (Backend.saveCheckpoint kind number)
  saveIssues issues := noting [] (Backend.saveIssues issues)
  issues := noting [] Backend.issues
  counts w := Backend.counts w.store

instance : Around (TraceWatched σ) σ where
  inner := store
  getBlocks _ := follows_noting [] _
  getBlocksByHashes _ := follows_noting [] _
  saveBlocks _ _ := follows_noting [] _
  getTransactions _ := follows_noting [] _
  saveTransactions _ _ := follows_noting [] _
  getCheckpoint _ := follows_noting [] _
  saveCheckpoint kind number := follows_noting (noted kind number) _
  saveIssues _ := follows_noting [] _

theorem getCheckpoint_on [LawfulBackend σ] (w : TraceWatched σ) (kind : CheckpointKind) :
    (Backend.getCheckpoint kind).on w = (.ok ((view w.store).checkpoint? kind), w) :=
  Watched.noting_lookup (LawfulBackend.getCheckpoint_on w.store kind)

/-- A checkpoint of traces that is saved adds its number. -/
theorem saveCheckpoint_ok {w w' : TraceWatched σ} {number : UInt64}
    (h : (Backend.saveCheckpoint .trace number).on w = (.ok (), w')) :
    (Backend.saveCheckpoint .trace number).on w.store = (.ok (), w'.store) ∧
      w'.saves = w.saves ++ [number] := by
  have watched : (Backend.saveCheckpoint .trace number : Action (TraceWatched σ) Unit) =
      noting [number] (Backend.saveCheckpoint .trace number) := rfl
  rw [watched] at h
  rcases done : (Backend.saveCheckpoint .trace number).on w.store with ⟨fault | ⟨⟩, s⟩
  · cases (Watched.noting_error done).symm.trans h
  · cases (Watched.noting_ok done).symm.trans h
    exact ⟨rfl, rfl⟩

end TraceWatched

end ChainIndex
