import ChainIndex.Proofs.Batch.Persist
import ChainIndex.Proofs.Store.Lawful

/-!
# Stores that refuse writes by their kind

In a steady store the kind of a write alone tells whether it is refused, and a write that is carried
out changes nothing about that.  All stores here are steady: the store in memory refuses the kinds
that were made to fail, and the store of signed columns refuses none.

How far a batch is persisted then depends on which of its lists are empty, and on nothing else about
it (`persist_settled`).
-/

namespace ChainIndex

/-- A write is refused for a reason and changes nothing, or it is carried out and the same kinds are
refused afterwards. -/
def Settled {σ α : Type} (refused : σ → FailPoint → Option String) (reason? : Option String)
    (action : Action σ α) (s : σ) : Prop :=
  match reason? with
  | some reason => action.on s = (.error (.storage reason), s)
  | none => ∃ a s', action.on s = (.ok a, s') ∧ refused s' = refused s

/-- A store that refuses writes by their kind. -/
class SteadyBackend (σ : Type) [Backend σ] where
  /-- The reason for which a kind of write is refused. -/
  refused : σ → FailPoint → Option String
  saveIssues_settled (s : σ) (issues : List Issue) :
    Settled refused (refused s .saveIssues) (Backend.saveIssues issues) s
  saveBlocks_settled (s : σ) (new changed : List BlockRow) :
    Settled refused (refused s .saveBlocks) (Backend.saveBlocks new changed) s
  saveTransactions_settled (s : σ) (new changed : List TransactionRow) :
    Settled refused (refused s .saveTransactions) (Backend.saveTransactions new changed) s

theorem Settled.of_ok {σ α : Type} {refused : σ → FailPoint → Option String} {action : Action σ α}
    {s s' : σ} {a : α} (done : action.on s = (.ok a, s')) (kept : refused s' = refused s) :
    Settled refused none action s := ⟨a, s', done, kept⟩

/-! ## The stores are steady -/

namespace MemoryStore

/-- The kinds of writes that were made to fail are refused. -/
def refused (m : MemoryStore) (point : FailPoint) : Option String :=
  if m.failing.contains point then some ("injected failure: " ++ point.name) else none

theorem settled {α : Type} {m : MemoryStore} {f : MemoryStore → α × MemoryStore} (point : FailPoint)
    (kept : (f m).2.failing = m.failing) :
    Settled refused (m.refused point) (write point f) m := by
  rw [refused]
  by_cases broken : m.failing.contains point = true
  · rw [if_pos broken]
    show (write point f).on m = _
    rw [Effect.on, write, if_pos broken]
  · rw [if_neg broken]
    refine ⟨(f m).1, (f m).2, ?_, ?_⟩
    · rw [Effect.on, write, if_neg broken]
    · funext kind
      rw [refused, refused, kept]

instance : SteadyBackend MemoryStore where
  refused := refused
  saveIssues_settled _ _ := settled .saveIssues rfl
  saveBlocks_settled _ _ _ := settled .saveBlocks rfl
  saveTransactions_settled _ _ _ := settled .saveTransactions rfl

end MemoryStore

instance : SteadyBackend SignedStore where
  refused _ _ := none
  saveIssues_settled _ _ := .of_ok rfl rfl
  saveBlocks_settled _ _ _ := .of_ok rfl rfl
  saveTransactions_settled _ _ _ := .of_ok rfl rfl

namespace Store

/-- What either store refuses. -/
def refused : Store → FailPoint → Option String
  | memory m => m.refused
  | signed _ => fun _ => none

theorem settled_memory {α : Type} {onMemory : Action MemoryStore α} {onSigned : Action SignedStore α}
    {m : MemoryStore} {reason? : Option String}
    (h : Settled MemoryStore.refused reason? onMemory m) :
    Settled refused reason? (lift onMemory onSigned) (memory m) := by
  cases reason? with
  | some reason => exact lift_memory h
  | none =>
    obtain ⟨a, m', done, kept⟩ := h
    exact .of_ok (lift_memory done) kept

theorem settled_signed {α : Type} {onMemory : Action MemoryStore α} {onSigned : Action SignedStore α}
    {m m' : SignedStore} {a : α} (done : onSigned.on m = (.ok a, m')) :
    Settled refused none (lift onMemory onSigned) (signed m) := .of_ok (lift_signed done) rfl

open SteadyBackend in
instance : SteadyBackend Store where
  refused := refused
  saveIssues_settled
    | memory m, issues => settled_memory (saveIssues_settled m issues)
    | signed _, _ => settled_signed rfl
  saveBlocks_settled
    | memory m, new, changed => settled_memory (saveBlocks_settled m new changed)
    | signed _, _, _ => settled_signed rfl
  saveTransactions_settled
    | memory m, new, changed => settled_memory (saveTransactions_settled m new changed)
    | signed _, _, _ => settled_signed rfl

end Store

/-! ## Persisting in a steady store -/

/-- A write that is carried out does what it should. -/
theorem Writes.of_ok {σ α : Type} [Backend σ] {view : σ → View} {Sturdy : σ → Prop}
    {action : Action σ α} {s s' : σ} {a b : α} {after : View}
    (h : Writes view Sturdy action s a after) (done : action.on s = (.ok b, s')) :
    b = a ∧ view s' = after := by
  rcases h with ⟨left, carried, content, _⟩ | ⟨_, _, fails⟩
  · cases carried.symm.trans done
    exact ⟨rfl, content⟩
  · cases fails.symm.trans done

namespace Batch

variable (reason? : FailPoint → Option String) (b : Batch)

/-- Why the issues of a batch are refused.  No issues are not written at all. -/
def issuesRefused : Option String := if b.issues.isEmpty then none else reason? .saveIssues

@[inherit_doc issuesRefused]
def blocksRefused : Option String :=
  if b.newBlocks.isEmpty && b.changedBlocks.isEmpty then none else reason? .saveBlocks

@[inherit_doc issuesRefused]
def transactionsRefused : Option String :=
  if b.newTransactions.isEmpty && b.changedTransactions.isEmpty then none
  else reason? .saveTransactions

/-- The stage at which a batch breaks off, and why. -/
def brokenAt? : Option (Nat × String) :=
  ((b.issuesRefused reason?).map fun reason => (0, reason)).or <|
    ((b.blocksRefused reason?).map fun reason => (1, reason)).or <|
      (b.transactionsRefused reason?).map fun reason => (2, reason)

variable {σ : Type} [Backend σ] [SteadyBackend σ]

open SteadyBackend

theorem recordIssues_settled (b : Batch) (s : σ) :
    Settled refused (b.issuesRefused (refused s)) b.recordIssues s := by
  rw [issuesRefused, recordIssues]
  split
  case isTrue => exact .of_ok rfl rfl
  case isFalse => exact saveIssues_settled s b.issues

theorem storeBlocks_settled (b : Batch) (s : σ) :
    Settled refused (b.blocksRefused (refused s)) b.storeBlocks s := by
  rw [blocksRefused, storeBlocks]
  split
  case isTrue => exact .of_ok rfl rfl
  case isFalse => exact saveBlocks_settled s b.newBlocks b.changedBlocks

theorem storeTransactions_settled (b : Batch) (s : σ) :
    Settled refused (b.transactionsRefused (refused s)) b.storeTransactions s := by
  rw [transactionsRefused, storeTransactions]
  split
  case isTrue => exact .of_ok rfl rfl
  case isFalse => exact saveTransactions_settled s b.newTransactions b.changedTransactions

variable [LawfulBackend σ]

open LawfulBackend

/-- A batch is persisted up to the first of its writes that is refused. -/
theorem persist_settled (b : Batch) (s : σ) :
    ∃ s', match b.brokenAt? (refused s) with
      | none => b.persist.on s = (.ok (appendIssues (view s).log b.issues).1, s') ∧
          view s' = b.stage (view s) 3
      | some (k, reason) =>
          b.persist.on s = (.error (.storage reason), s') ∧ view s' = b.stage (view s) k := by
  rw [brokenAt?, persist]
  -- a write that is carried out refuses nothing new, so `refused s` decides the later ones too
  have issues := recordIssues_settled b s
  cases first : b.issuesRefused (refused s) with
  | some reason =>
    rw [first] at issues
    exact ⟨s, Effect.on_bind_error issues, rfl⟩
  | none =>
    rw [first] at issues
    obtain ⟨count, s₁, h₁, kept₁⟩ := issues
    obtain ⟨rfl, v₁⟩ := (recordIssues_on b s).of_ok h₁
    have blocks := storeBlocks_settled b s₁
    rw [kept₁] at blocks
    cases second : b.blocksRefused (refused s) with
    | some reason =>
      rw [second] at blocks
      exact ⟨s₁, (Effect.on_bind_ok h₁).trans (Effect.on_bind_error blocks), v₁⟩
    | none =>
      rw [second] at blocks
      obtain ⟨_, s₂, h₂, kept₂⟩ := blocks
      have v₂ := ((storeBlocks_on b s₁).of_ok h₂).2
      rw [v₁] at v₂
      have transactions := storeTransactions_settled b s₂
      rw [kept₂, kept₁] at transactions
      cases third : b.transactionsRefused (refused s) with
      | some reason =>
        rw [third] at transactions
        refine ⟨s₂, ?_, v₂⟩
        exact (Effect.on_bind_ok h₁).trans ((Effect.on_bind_ok h₂).trans
          (Effect.on_bind_error transactions))
      | none =>
        rw [third] at transactions
        obtain ⟨_, s₃, h₃, _⟩ := transactions
        have v₃ := ((storeTransactions_on b s₂).of_ok h₃).2
        rw [v₂] at v₃
        refine ⟨s₃, ?_, v₃⟩
        exact (Effect.on_bind_ok h₁).trans ((Effect.on_bind_ok h₂).trans (Effect.on_bind_ok h₃))

end Batch

end ChainIndex
