import ChainIndex.Proofs.Batch.Accounts
import ChainIndex.Proofs.Index.Following
import ChainIndex.Proofs.Store.Growth
import ChainIndex.Proofs.Store.Watched

/-!
# The report of an index run

A report counts what a run added to the tables: new blocks, new transactions and issues.  Its next
block is the last number that was saved as checkpoint, or the start of the run.

`Agrees` says so between two windows, and each window keeps it (`Agrees.absorbed`).  A window that
makes the run step back adds its issue only, and a window that is stored again adds no row twice,
since its rows are not new then.
-/

namespace ChainIndex

open LawfulBackend

/-! ## What a window does to the checkpoint -/

section Saves

variable {σ : Type} [Backend σ] {plan : IndexPlan} {r r' : IndexRun} {last : UInt64}
  {results : List BlockResult} {w w' : Watched σ}

/-- The checkpoint is left alone between two reports, or it is saved once more, at the next block of
the later report. -/
inductive Checkpointed (before after : BatchReport) (w w' : Watched σ) : Prop
  | same (windows : after.windows = before.windows) (next : after.nextBlock = before.nextBlock)
      (left : w'.saves = w.saves)
  | once (windows : after.windows = before.windows + 1)
      (left : w'.saves = w.saves ++ [after.nextBlock])

theorem checkpointed_stepBack {issue : Issue}
    (h : (r.stepBack plan issue).checked.on w = (.ok r', w')) :
    Checkpointed r.report r'.report w w' := by
  obtain ⟨inserted, w₁, saved, rest⟩ := Effect.of_bind_ok (Effect.of_checked_ok h)
  cases rest
  have left := Watched.Unwatched.noting (Backend.saveIssues [issue]) w
  exact .same rfl rfl (by rw [← left]; exact congrArg (fun o => Watched.saves o.2) saved.symm)

variable [LawfulBackend σ]

theorem checkpointed_storeWindow (h : (r.storeWindow plan last results).on w = (.ok r', w')) :
    Checkpointed r.report r'.report w w' := by
  obtain ⟨batch, w, classified, rest⟩ := Effect.of_bind_ok h
  obtain ⟨_, rfl, rfl⟩ := Batch.of_prepare_ok classified
  obtain ⟨inserted, w₁, persisted, rest⟩ := Effect.of_bind_ok rest
  obtain ⟨_, w₂, saved, rest⟩ := Effect.of_bind_ok (Effect.of_inRange_ok rest).2
  cases rest
  have left := Watched.unwatched_persist (Batch.prepared plan.options results w) w
  rw [Effect.of_checked_ok persisted] at left
  exact .once rfl (by rw [Watched.saves_saveCheckpoint (Effect.of_checked_ok saved), left])

theorem checkpointed_absorb (h : (r.absorb plan last results).on w = (.ok r', w')) :
    Checkpointed r.report r'.report w w' := by
  cases results with
  | nil => cases h
  | cons result rest =>
    simp only [IndexRun.absorb] at h
    split at h
    case h_1 block _ _ =>
      split at h
      case isTrue =>
        rw [Effect.on_bind_ok (Effect.on_checked_ok (IndexRun.leadingReorg_on block w))] at h
        split at h
        case h_1 => exact checkpointed_stepBack h
        case h_2 => exact checkpointed_storeWindow h
      case isFalse =>
        rw [pure_bind] at h
        exact checkpointed_storeWindow h
    case h_2 =>
      obtain ⟨_, _, _, rest⟩ := Effect.of_bind_ok (Effect.of_checked_ok h)
      cases rest

end Saves

/-! ## What a window does to the tables -/

section Tables

variable {plan : IndexPlan} {r r' : IndexRun} {last : UInt64} {results : List BlockResult}
  {options : ClassifyOptions} {w w' : Watched MemoryStore}

/-- A batch that is stored makes the table of blocks grow by its new blocks. -/
theorem size_blocks_stored (distinct : (results.map BlockResult.number).Nodup)
    (left : (view w').block? = ((Batch.prepared options results w).stage (view w) 3).block?) :
    w'.store.blocks.size =
      w.store.blocks.size + (Batch.prepared options results w).newBlocks.length := by
  have accounts : Batch.Accounts (view w) options results (Batch.prepared options results w) :=
    Batch.accounts_classified distinct
  refine MemoryStore.size_of_putBlocks left ?_ ?_ ?_
  · rw [accounts.newBlocks]
    exact (Batch.resultRows_nodup distinct).sublist (List.filter_sublist.map _)
  · intro row hrow
    rw [accounts.newBlocks] at hrow
    exact Option.isNone_iff_eq_none.mp (List.mem_filter.mp hrow).2
  · intro row hrow
    rw [accounts.changedBlocks] at hrow
    obtain ⟨old, stored, _⟩ := Option.any_eq_true _ _ |>.mp (List.mem_filter.mp hrow).2
    exact Option.isSome_of_eq_some stored

/-- A batch that is stored makes the table of transactions grow by its new transactions. -/
theorem size_transactions_stored (distinct : (results.map BlockResult.number).Nodup)
    (left : (view w').transaction? =
      ((Batch.prepared options results w).stage (view w) 3).transaction?) :
    w'.store.transactions.size =
      w.store.transactions.size + (Batch.prepared options results w).newTransactions.length := by
  have accounts : Batch.Accounts (view w) options results (Batch.prepared options results w) :=
    Batch.accounts_classified distinct
  refine MemoryStore.size_of_putTransactions left ?_ ?_ ?_
  · exact accounts.hashesOnce.sublist ((List.sublist_append_left _ _).map _)
  · exact fun tx htx => ((accounts.newTransactions tx).mp htx).2.2
  · intro tx htx
    obtain ⟨_, _, old, stored, _⟩ := (accounts.changedTransactions tx).mp htx
    exact Option.isSome_of_eq_some stored

end Tables

/-! ## The report -/

/-- A report agrees with the tables and the checkpoints of a run that started with a store at a
block. -/
structure Agrees (s : MemoryStore) (first : UInt64) (report : BatchReport)
    (w : Watched MemoryStore) : Prop where
  blocks : w.store.blocks.size = s.blocks.size + report.newBlocks
  transactions : w.store.transactions.size = s.transactions.size + report.newTransactions
  issues : w.store.log.length = s.log.length + report.issues
  windows : w.saves.length = report.windows
  next : w.saves.getLast?.getD first = report.nextBlock

namespace Agrees

variable {s : MemoryStore} {first : UInt64} {plan : IndexPlan} {r r' : IndexRun} {last : UInt64}
  {results : List BlockResult} {w w' : Watched MemoryStore}

/-- A run starts with an empty report. -/
theorem start : Agrees s first { nextBlock := first } ⟨s, []⟩ := ⟨rfl, rfl, rfl, rfl, rfl⟩

/-- A window keeps the report in agreement. -/
theorem absorbed (h : Agrees s first r.report w) (distinct : (results.map BlockResult.number).Nodup)
    (done : (r.absorb plan last results).on w = (.ok r', w')) : Agrees s first r'.report w' := by
  have outcome := IndexRun.outcome_on plan r last results w
  rw [done] at outcome
  have checkpoints : w'.saves.length = r'.report.windows ∧
      w'.saves.getLast?.getD first = r'.report.nextBlock := by
    cases checkpointed_absorb done with
    | same windows next left =>
      rw [left, windows, next]
      exact ⟨h.windows, h.next⟩
    | once windows left => simp [left, windows, h.windows]
  cases outcome with
  | @stepsBack _ issue _ _ _ _ _ left =>
    have rows : (view w').block? = (view w).block? := (congrArg View.block? left :)
    have others : (view w').transaction? = (view w).transaction? :=
      (congrArg View.transaction? left :)
    have blocks : w'.store.blocks = w.store.blocks := MemoryStore.blocks_eq_of_view rows
    have transactions : w'.store.transactions = w.store.transactions :=
      MemoryStore.transactions_eq_of_view others
    have log : w'.store.log = (appendIssues w.store.log [issue]).2 := congrArg View.log left
    refine ⟨blocks ▸ h.blocks, transactions ▸ h.transactions, ?_, checkpoints.1, checkpoints.2⟩
    rw [log, length_appendIssues, h.issues, Nat.add_assoc]
    rfl
  | @stores _ stored _ _ _ _ _ rows left =>
    have stage : (view w').block? =
        ((Batch.prepared plan.options results w).stage (view w) 3).block? :=
      (congrArg View.block? left).trans (congrArg View.block? rows :)
    have others : (view w').transaction? =
        ((Batch.prepared plan.options results w).stage (view w) 3).transaction? :=
      (congrArg View.transaction? left).trans (congrArg View.transaction? rows :)
    have blocks := size_blocks_stored distinct stage
    have transactions := size_transactions_stored distinct others
    have log : w'.store.log =
        (appendIssues w.store.log (Batch.prepared plan.options results w).issues).2 :=
      (congrArg View.log left).trans (congrArg View.log rows :)
    refine ⟨?_, ?_, ?_, checkpoints.1, checkpoints.2⟩
    · rw [blocks, h.blocks, Nat.add_assoc]
      rfl
    · rw [transactions, h.transactions, Nat.add_assoc]
      rfl
    · rw [log, length_appendIssues, h.issues, Nat.add_assoc]
      rfl

end Agrees

/-- The report of a run that still goes on, or that has ended well. -/
def IndexPhase.report? : IndexPhase → Option BatchReport
  | .askHead run => some run.report
  | .askWindow run _ => some run.report
  | .ended (.ok report) => some report
  | .ended (.error _) => none
  | .broken => none

section Runs

variable {s : MemoryStore} {first : UInt64} {plan : IndexPlan} {answers : Answers}

/-- A step of a run keeps its report in agreement. -/
theorem agrees_step {before after : IndexPhase × Watched MemoryStore}
    (step : IndexStep plan answers before after)
    (h : ∀ report ∈ before.1.report?, Agrees s first report before.2) :
    ∀ report ∈ after.1.report?, Agrees s first report after.2 := by
  cases step using IndexStep.by_results with
  | head run w answer _ =>
    have h := h run.report rfl
    intro report reported
    simp only [IndexPhase.onHead] at reported
    split at reported
    case h_1 => cases reported
    case h_2 =>
      split at reported
      all_goals
        obtain rfl := Option.some.inj reported
        exact h
  | uncountable =>
    intro _ reported
    cases reported
  | window run last w answer allowed =>
    have h := h run.report rfl
    intro report reported
    cases answer with
    | error fault => cases reported
    | ok results =>
      have distinct : (results.map BlockResult.number).Nodup :=
        allowed.1 ▸ Window.numbers_nodup run.next last
      rw [IndexPhase.onWindow, IndexPhase.ofStep_eq] at reported ⊢
      rcases done : (run.absorb plan last results).on w with ⟨(fault | _) | r', w'⟩
      · rw [done] at reported
        cases reported
      · rw [done] at reported
        cases reported
      · rw [done] at reported
        obtain rfl := Option.some.inj reported
        exact h.absorbed distinct done

theorem agrees_steps {before after : IndexPhase × Watched MemoryStore}
    (steps : IndexSteps plan answers before after)
    (h : ∀ report ∈ before.1.report?, Agrees s first report before.2) :
    ∀ report ∈ after.1.report?, Agrees s first report after.2 := by
  induction steps with
  | refl => exact h
  | tail _ step ih => exact agrees_step step ih

/-- The report of a watched run that ends well agrees with what the run leaves. -/
theorem agrees_run {order : IndexOrder} {report : BatchReport} {w : Watched MemoryStore}
    (run : IndexSteps plan answers (IndexPhase.start order (⟨s, []⟩ : Watched MemoryStore))
      (.ended (.ok report), w)) : Agrees s (IndexPhase.firstBlock order (view s)) report w := by
  rw [IndexPhase.start_eq] at run
  have starts : ∀ report ∈ (IndexPhase.askHead ⟨order, IndexPhase.firstBlock order (view s),
      { nextBlock := IndexPhase.firstBlock order (view s) }, none⟩).report?,
      Agrees s (IndexPhase.firstBlock order (view s)) report ⟨s, []⟩ := by
    intro report started
    obtain rfl := Option.some.inj started
    exact .start
  exact agrees_steps run starts report rfl

/-- The report of an index run that ends well says by how many rows the tables of blocks and of
transactions and by how many issues the log have grown, through all windows that were stored, made
the run step back or were stored again.

Where the numbers that are saved as checkpoint are noted, there is one per window, and the last one
is the next block of the report.  Where no window was stored, that is the start of the run. -/
theorem report_agrees_with_tables {order : IndexOrder} {report : BatchReport} {s' : MemoryStore}
    (run : IndexSteps plan answers (IndexPhase.start order s) (.ended (.ok report), s')) :
    s'.blocks.size = s.blocks.size + report.newBlocks ∧
      s'.transactions.size = s.transactions.size + report.newTransactions ∧
      s'.log.length = s.log.length + report.issues ∧
      (report.windows = 0 → report.nextBlock = IndexPhase.firstBlock order (view s)) ∧
      let watched (saves : List UInt64) : Prop :=
        IndexSteps plan answers (IndexPhase.start order (⟨s, []⟩ : Watched MemoryStore))
          (.ended (.ok report), ⟨s', saves⟩)
      (∃ saves, watched saves) ∧ ∀ saves, watched saves → saves.length = report.windows ∧
        (0 < report.windows → saves.getLast? = some report.nextBlock) := by
  obtain ⟨⟨after, saves⟩, noted, same⟩ :
      ∃ w, IndexSteps plan answers (IndexPhase.start order (⟨s, []⟩ : Watched MemoryStore))
        (.ended (.ok report), w) ∧ Around.inner w = s' := by
    have starts := IndexPhase.start_follows order (⟨s, []⟩ : Watched MemoryStore)
    exact IndexSteps.lift (starts ▸ run)
  obtain rfl : after = s' := same
  have agrees := agrees_run noted
  refine ⟨agrees.blocks, agrees.transactions, agrees.issues, ?_, ⟨saves, noted⟩, ?_⟩
  · intro none
    have next := agrees.next
    rw [List.length_eq_zero_iff.mp (agrees.windows.trans none), List.getLast?_nil,
      Option.getD_none] at next
    exact next.symm
  · intro saves noted
    have agrees := agrees_run noted
    refine ⟨agrees.windows, ?_⟩
    intro stored
    have next := agrees.next
    have some : saves ≠ [] := List.ne_nil_of_length_pos (agrees.windows ▸ stored)
    rw [List.getLast?_eq_some_getLast some, Option.getD_some] at next
    rw [List.getLast?_eq_some_getLast some, next]

theorem report_agrees_with_tables_over_replaced_block :
    ∃ (past : List IndexPhase) (report : BatchReport) (s' : MemoryStore),
      IndexPath Overtaken.plan ⟨fun _ => True, fun _ => True⟩
        (IndexPhase.start Overtaken.order Overtaken.store) past (.ended (.ok report), s') ∧
      windowStarts past = [3, 1, 2, 1] ∧
      s'.blocks.size = Overtaken.store.blocks.size + report.newBlocks ∧
      s'.transactions.size = Overtaken.store.transactions.size + report.newTransactions ∧
      s'.log.length = Overtaken.store.log.length + report.issues ∧
      ∃ saves : List UInt64, saves.length = 3 ∧ saves.getLast? = some 4 := by
  let any : Answers := ⟨fun _ => True, fun _ => True⟩
  obtain ⟨past, report, s', path, starts, windows, behind, _⟩ :=
    Overtaken.path (show any.head ⟨some 3, none⟩ from trivial) fun _ _ => trivial
  obtain ⟨blocks, transactions, issues, _, ⟨saves, noted⟩, every⟩ :=
    report_agrees_with_tables path.steps
  obtain ⟨length, last⟩ := every saves noted
  rw [windows] at length last
  exact ⟨past, report, s', path, starts, blocks, transactions, issues, saves, length,
    behind ▸ last (by decide)⟩

end Runs

end ChainIndex
