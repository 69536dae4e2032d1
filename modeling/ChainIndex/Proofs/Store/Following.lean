import ChainIndex.Store.Basic

/-!
# Stores around stores

A store may hold another one and let it do the work, to take notes of what is done.  A program on
such a store `Follows` the program on the store in it: it gives the same answer, and leaves the same
store there.  Each operation of an `Around` does so, and with them every program that is made of
operations.
-/

namespace ChainIndex

variable {ε τ σ α β : Type}

/-- A program on an outer store answers what a program on the inner store answers, and leaves the
inner store that this leaves. -/
def Follows (inner : τ → σ) (whole : Effect ε τ α) (action : Effect ε σ α) : Prop :=
  ∀ w, (whole.on w).1 = (action.on (inner w)).1 ∧ inner (whole.on w).2 = (action.on (inner w)).2

/-- A store around another one. -/
class Around (τ : Type) (σ : outParam Type) [Backend τ] [Backend σ] where
  /-- The store in it. -/
  inner : τ → σ
  getBlocks (numbers : List UInt64) :
    Follows inner (Backend.getBlocks numbers) (Backend.getBlocks numbers)
  getBlocksByHashes (hashes : List String) :
    Follows inner (Backend.getBlocksByHashes hashes) (Backend.getBlocksByHashes hashes)
  saveBlocks (new changed : List BlockRow) :
    Follows inner (Backend.saveBlocks new changed) (Backend.saveBlocks new changed)
  getTransactions (hashes : List String) :
    Follows inner (Backend.getTransactions hashes) (Backend.getTransactions hashes)
  saveTransactions (new changed : List TransactionRow) :
    Follows inner (Backend.saveTransactions new changed) (Backend.saveTransactions new changed)
  getCheckpoint (kind : CheckpointKind) :
    Follows inner (Backend.getCheckpoint kind) (Backend.getCheckpoint kind)
  saveCheckpoint (kind : CheckpointKind) (number : UInt64) :
    Follows inner (Backend.saveCheckpoint kind number) (Backend.saveCheckpoint kind number)
  saveIssues (issues : List Issue) :
    Follows inner (Backend.saveIssues issues) (Backend.saveIssues issues)

namespace Follows

variable {inner : τ → σ}

theorem pure (a : α) :
    Follows inner (Pure.pure a : Effect ε τ α) (Pure.pure a : Effect ε σ α) := fun _ => ⟨rfl, rfl⟩

theorem throw (e : ε) :
    Follows inner (MonadExcept.throw e : Effect ε τ α) (MonadExcept.throw e : Effect ε σ α) :=
  fun _ => ⟨rfl, rfl⟩

theorem bind {whole : Effect ε τ α} {action : Effect ε σ α} {next : α → Effect ε τ β}
    {next' : α → Effect ε σ β} (h : Follows inner whole action)
    (hnext : ∀ a, Follows inner (next a) (next' a)) :
    Follows inner (whole >>= next) (action >>= next') := by
  intro w
  obtain ⟨answer, left⟩ := h w
  rw [Effect.on_bind, Effect.on_bind]
  rcases hw : whole.on w with ⟨r, w'⟩
  rcases hs : action.on (inner w) with ⟨r', s'⟩
  rw [hw, hs] at answer left
  obtain rfl : r = r' := answer
  obtain rfl : inner w' = s' := left
  cases r with
  | ok a => exact hnext a w'
  | error fault => exact ⟨rfl, rfl⟩

theorem ite {p : Prop} [Decidable p] {whole other : Effect ε τ α} {action action' : Effect ε σ α}
    (yes : Follows inner whole action) (no : Follows inner other action') :
    Follows inner (if p then whole else other) (if p then action else action') := by
  split
  case isTrue => exact yes
  case isFalse => exact no

/-- What may break off follows like what may fail. -/
theorem checked {whole : Action τ α} {action : Action σ α} (h : Follows inner whole action) :
    Follows inner whole.checked action.checked := by
  intro w
  obtain ⟨answer, left⟩ := h w
  rw [Effect.on_checked, Effect.on_checked, answer]
  exact ⟨rfl, left⟩

theorem inRange (fits : Prop) [Decidable fits] :
    Follows inner (Effect.inRange (σ := τ) fits) (Effect.inRange (σ := σ) fits) :=
  .ite (.pure ()) (.throw Halt.overflow)

end Follows

end ChainIndex
