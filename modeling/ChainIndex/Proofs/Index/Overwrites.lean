import Mathlib.Data.List.Chain
import ChainIndex.Proofs.Batch.Given
import ChainIndex.Proofs.Index.Steps
import ChainIndex.Proofs.Store.Chronicle

/-!
# Nothing is overwritten in silence

A row changes its block hash, or moves to another block, only after the evidence of that is on
record.  This holds for any sequence of index runs and of blocks written from elsewhere, from any
store, whatever the node answers and whichever writes fail.

The runs work on a `Chronicle`, so the statement is about each single write: what a store held
right before the write has the evidence in its log.  A write of rows is one step, so of several
rows with one key only the last counts.

The invariant is `Chronicle.Faithful`.  Only the two writes of rows can break it, and these are
writes of a batch, which has written its issues before (`Batch.announces_stage`).
-/

namespace ChainIndex

variable {σ : Type} [Backend σ] [LawfulBackend σ]

open LawfulBackend

namespace Chronicle

/-- Each content of the history announces what the next one overwrites. -/
def Faithful (w : Chronicle σ) : Prop :=
  w.history.IsChain fun after before => before.Announces after

variable {ε α β : Type} {w : Chronicle σ}

theorem faithful_writing {action : Action σ α} {a : α} {after : View}
    (law : Writes view Sturdy action w.store a after) (told : (view w.store).Announces after)
    (h : w.Faithful) : ((writing action).on w).2.Faithful := by
  rcases law with ⟨s', done, left, _⟩ | ⟨_, reason, fails⟩
  · rw [writing_ok done]
    exact .cons_cons (left ▸ told) h
  · rw [writing_error fails]
    exact h

theorem faithful_bind {action : Effect ε (Chronicle σ) α} {next : α → Effect ε (Chronicle σ) β}
    (first : (action.on w).2.Faithful)
    (rest : ∀ a w', action.on w = (.ok a, w') → w'.Faithful → ((next a).on w').2.Faithful) :
    ((action >>= next).on w).2.Faithful := by
  rw [Effect.on_bind]
  rcases done : action.on w with ⟨r, w'⟩
  rw [done] at first
  cases r with
  | ok a => exact rest a w' done first
  | error fault => exact first

/-! ## Writes of a batch -/

theorem faithful_saveIssues (issues : List Issue) (h : w.Faithful) :
    ((Backend.saveIssues issues).on w).2.Faithful :=
  faithful_writing (saveIssues_on w.store issues) (.of_rows rfl rfl) h

theorem faithful_recordIssues (b : Batch) (h : w.Faithful) :
    (b.recordIssues.on w).2.Faithful := by
  rw [Batch.recordIssues]
  split
  case isTrue => exact h
  case isFalse => exact faithful_saveIssues b.issues h

theorem faithful_storeBlocks {b : Batch}
    (told : (view w).Announces ((view w).putBlocks (b.newBlocks ++ b.changedBlocks)))
    (h : w.Faithful) : (b.storeBlocks.on w).2.Faithful := by
  rw [Batch.storeBlocks]
  split
  case isTrue => exact h
  case isFalse => exact faithful_writing (saveBlocks_on w.store _ _) told h

theorem faithful_storeTransactions {b : Batch}
    (told : (view w).Announces
      ((view w).putTransactions (b.newTransactions ++ b.changedTransactions)))
    (h : w.Faithful) : (b.storeTransactions.on w).2.Faithful := by
  rw [Batch.storeTransactions]
  split
  case isTrue => exact h
  case isFalse => exact faithful_writing (saveTransactions_on w.store _ _) told h

/-- A batch that was classified against the store keeps the history faithful, even where it
breaks off. -/
theorem faithful_persist (options : ClassifyOptions) (results : List BlockResult)
    (h : w.Faithful) : ((Batch.prepared options results w).persist.on w).2.Faithful := by
  have announces (k : Nat) : ((Batch.prepared options results w).stage (view w) k).Announces
      ((Batch.prepared options results w).stage (view w) (k + 1)) := Batch.announces_stage k
  rw [Batch.persist]
  refine faithful_bind (faithful_recordIssues _ h) fun _ w₁ done₁ h₁ => ?_
  have view₁ : view w₁ = (Batch.prepared options results w).stage (view w) 1 := by
    rcases Batch.recordIssues_on (Batch.prepared options results w) w with
      ⟨_, done, left, _⟩ | ⟨_, _, fails⟩
    · rw [done] at done₁
      cases done₁
      exact left
    · rw [fails] at done₁
      cases done₁
  refine faithful_bind (faithful_storeBlocks ?_ h₁) fun _ w₂ done₂ h₂ => ?_
  · rw [view₁]
    exact announces 1
  have view₂ : view w₂ = (Batch.prepared options results w).stage (view w) 2 := by
    rcases Batch.storeBlocks_on (Batch.prepared options results w) w₁ with
      ⟨_, done, left, _⟩ | ⟨_, _, fails⟩
    · rw [done] at done₂
      cases done₂
      rw [left, view₁]
      rfl
    · rw [fails] at done₂
      cases done₂
  refine faithful_bind (faithful_storeTransactions ?_ h₂) fun _ _ _ h₃ => h₃
  rw [view₂]
  exact announces 2

/-! ## Programs -/

/-- A classification writes nothing. -/
theorem faithful_prepare (options : ClassifyOptions) (results : List BlockResult) (h : w.Faithful) :
    ((Batch.prepare options results).on w).2.Faithful := by
  rw [Batch.prepare_on]
  exact h

theorem faithful_inRange {fits : Prop} [Decidable fits] (h : w.Faithful) :
    ((Effect.inRange fits).on w).2.Faithful := by
  rw [Effect.inRange]
  split
  · exact h
  · exact h

theorem faithful_giveUp (first last : UInt64) (result : BlockResult) (results : List BlockResult)
    (h : w.Faithful) : ((IndexRun.giveUp first last result results).on w).2.Faithful :=
  faithful_bind (faithful_saveIssues _ h) fun _ _ _ h => h

theorem faithful_stepBack (plan : IndexPlan) (run : IndexRun) (issue : Issue) (h : w.Faithful) :
    ((run.stepBack plan issue).on w).2.Faithful :=
  faithful_bind (faithful_saveIssues _ h) fun _ _ _ h => h

theorem faithful_storeWindow (plan : IndexPlan) (run : IndexRun) (last : UInt64)
    (results : List BlockResult) (h : w.Faithful) :
    ((run.storeWindow plan last results).on w).2.Faithful := by
  refine faithful_bind (faithful_prepare plan.options results h) fun batch _ classified _ => ?_
  obtain ⟨_, rfl, rfl⟩ := Batch.of_prepare_ok classified
  refine faithful_bind (faithful_persist plan.options results h) fun _ _ _ h₁ => ?_
  refine faithful_bind (faithful_inRange h₁) fun _ w₂ _ h₂ => ?_
  refine faithful_bind ?_ fun _ _ _ h₃ => h₃
  exact faithful_writing (saveCheckpoint_on w₂.store .index _) (.of_rows rfl rfl) h₂

theorem faithful_absorb (plan : IndexPlan) (run : IndexRun) (last : UInt64)
    (results : List BlockResult) (h : w.Faithful) :
    ((run.absorb plan last results).on w).2.Faithful := by
  cases results with
  | nil => exact h
  | cons result rest =>
    simp only [IndexRun.absorb]
    split
    case h_1 block _ _ =>
      split
      case isTrue =>
        rw [Effect.on_bind_ok (Effect.on_checked_ok (IndexRun.leadingReorg_on block w))]
        cases (view w).reorg? block.numberWord block.hashNormalized with
        | none => exact faithful_storeWindow plan run last _ h
        | some issue => exact faithful_stepBack plan run issue h
      case isFalse =>
        rw [pure_bind]
        exact faithful_storeWindow plan run last _ h
    case h_2 => exact faithful_giveUp run.next last result _ h

theorem faithful_writeBlocks (options : ClassifyOptions) (blocks : List Block) (h : w.Faithful) :
    ((Batch.writeBlocks options blocks).on w).2.Faithful := by
  refine faithful_bind (faithful_inRange h) fun _ w₁ _ h₁ => ?_
  refine faithful_bind (faithful_prepare options _ h₁) fun batch _ classified _ => ?_
  obtain ⟨_, rfl, rfl⟩ := Batch.of_prepare_ok classified
  exact faithful_bind (faithful_persist options _ h₁) fun _ _ _ h₂ => h₂

theorem faithful_step {plan : IndexPlan} {answers : Answers}
    {before after : IndexPhase × Chronicle σ} (step : IndexStep plan answers before after)
    (h : before.2.Faithful) : after.2.Faithful := by
  cases step using IndexStep.by_results with
  | head => exact h
  | uncountable => exact h
  | window run last w answer _ =>
    cases answer with
    | error fault => exact h
    | ok results =>
      rw [IndexPhase.onWindow, IndexPhase.ofStep_eq]
      exact faithful_absorb plan run last results h

end Chronicle

/-! ## Any sequence of runs and writes -/

/-- What a store becomes, and the run at work on it, after any index runs and any blocks written
from elsewhere. -/
inductive Served : IndexPhase × Chronicle σ → Prop
  /-- Any store, and no run at work. -/
  | opened (s : σ) (result : Except CrawlFault BatchReport) : Served (.ended result, ⟨s, []⟩)
  /-- A run begins.  The one before it need not be over. -/
  | begin {phase : IndexPhase} {w : Chronicle σ} (order : IndexOrder) (before : Served (phase, w)) :
      Served (IndexPhase.start order w)
  /-- A run goes on with any answer, under any plan. -/
  | index {before after : IndexPhase × Chronicle σ} (plan : IndexPlan) (answers : Answers)
      (served : Served before) (step : IndexStep plan answers before after) : Served after
  /-- Blocks from elsewhere are written. -/
  | write {phase : IndexPhase} {w : Chronicle σ} (options : ClassifyOptions) (blocks : List Block)
      (before : Served (phase, w)) : Served (phase, ((Batch.writeBlocks options blocks).on w).2)
  /-- Anything else happens that leaves rows and the log alone.  Writes may begin or cease to
  fail. -/
  | other {phase : IndexPhase} {w : Chronicle σ} (s : σ)
      (blocks : (view s).block? = (view w.store).block?)
      (transactions : (view s).transaction? = (view w.store).transaction?)
      (log : (view s).log = (view w.store).log) (before : Served (phase, w)) :
      Served (phase, ⟨s, w.past⟩)

/-- The history of a served store is faithful. -/
theorem Served.faithful {state : IndexPhase × Chronicle σ} (h : Served state) :
    state.2.Faithful := by
  induction h with
  | opened s result => exact .singleton (view s)
  | @begin phase w order _ ih =>
    rw [IndexPhase.start_eq]
    exact ih
  | index plan answers _ step ih => exact Chronicle.faithful_step step ih
  | write options blocks _ ih => exact Chronicle.faithful_writeBlocks options blocks ih
  | @other phase w s blocks transactions log _ ih =>
    refine List.isChain_cons.mpr ⟨?_, (List.isChain_cons.mp ih).2⟩
    intro before hbefore
    obtain ⟨keepsBlock, keepsTransaction, reorg, moved⟩ :=
      (List.isChain_cons.mp ih).1 before hbefore
    constructor
    · rwa [blocks]
    · rwa [transactions]
    · rwa [blocks]
    · rwa [transactions]

/-- No write overwrites in silence.  Where the hash of a block changes, the log had the reorg
issue before the write.  Where a transaction moves to another block, the log had the issue of
that.  No write takes a row away. -/
theorem no_silent_overwrite {state : IndexPhase × Chronicle σ} (served : Served state)
    {newer older : List View} {before after : View}
    (wrote : state.2.history = newer ++ after :: before :: older) :
    (∀ n old new, before.block? n = some old → after.block? n = some new →
      old.hash ≠ new.hash → Recorded before.log (Issue.reorg n old.hash new.hash)) ∧
    (∀ h old new, before.transaction? h = some old → after.transaction? h = some new →
      old.blockNumber ≠ new.blockNumber →
        Recorded before.log
          (Issue.duplicatedTxHash h new.blockNumber new.blockHash old.blockNumber old.blockHash)) ∧
    (∀ n, (before.block? n).isSome → (after.block? n).isSome) ∧
    (∀ h, (before.transaction? h).isSome → (after.transaction? h).isSome) := by
  have chain := served.faithful
  rw [Chronicle.Faithful, wrote] at chain
  have step : before.Announces after :=
    (List.isChain_cons_cons.mp (List.isChain_append.mp chain).2.1).1
  exact ⟨step.reorg, step.moved, step.keepsBlock, step.keepsTransaction⟩

namespace Fork

/-- A store with a block 1, and with a transaction in block 5. -/
def store : MemoryStore :=
  { (default : MemoryStore) with
    blocks := Table.insert default (BlockRow.ofBlock { number := "0x1", hash := "0xaa" })
    transactions := Table.insert default { hash := "0xf0", blockNumber := 5, blockHash := "0xee" } }

/-- Another block 1, with that transaction. -/
def block : Block := { number := "0x1", hash := "0xab", transactions := [{ hash := "0xf0" }] }

/-- The store after the other block is written to it. -/
def written : Chronicle MemoryStore :=
  ((Batch.writeBlocks ⟨false, true⟩ [block]).on ⟨store, []⟩).2

/-- The hash of block 1, and the block in which the transaction stands. -/
def rows (v : View) : Option String × Option (UInt64 × String) :=
  ((v.block? 1).map BlockRow.hash,
    (v.transaction? "0xf0").map fun tx => (tx.blockNumber, tx.blockHash))

/-- The issues are written first, then the block, and then the transaction. -/
theorem rows_written : written.history.map rows =
    [(some "0xab", some (1, "0xab")), (some "0xab", some (5, "0xee")),
      (some "0xaa", some (5, "0xee")), (some "0xaa", some (5, "0xee"))] := by
  let w : Chronicle MemoryStore := ⟨store, []⟩
  let batch := Batch.prepared ⟨false, true⟩ [Batch.givenResult block] w
  have wrote : written = (batch.persist.on w).2 := by
    have fits : Batch.GivenFits (view w) [block] := by decide +kernel
    rw [written, Batch.writeBlocks_eq _ fits]
    split
    case h_1 done => exact (congrArg Prod.snd done).symm
    case h_2 fails => exact (congrArg Prod.snd fails).symm
  rw [wrote]
  decide +kernel

end Fork

theorem no_silent_overwrite_of_fork :
    ∃ v₃ v₂ v₁ v₀, Served (.ended (.ok {}), Fork.written) ∧
      Fork.written.history = [v₃, v₂, v₁, v₀] ∧
      Recorded v₁.log (Issue.reorg 1 "0xaa" "0xab") ∧
      Recorded v₂.log (Issue.duplicatedTxHash "0xf0" 1 "0xab" 5 "0xee") := by
  have served : Served (.ended (.ok {}), Fork.written) := .write _ _ (.opened Fork.store (.ok {}))
  have rows := Fork.rows_written
  simp only [List.map_eq_cons_iff, List.map_eq_nil_iff] at rows
  obtain ⟨v₃, _, contents, rows₃, v₂, _, rfl, rows₂, v₁, _, rfl, rows₁, v₀, _, rfl, _, rfl⟩ := rows
  simp only [Fork.rows, Prod.mk.injEq, Option.map_eq_some_iff] at rows₁ rows₂ rows₃
  obtain ⟨⟨stale, hstale, staleHash⟩, _⟩ := rows₁
  obtain ⟨⟨fresh, hfresh, freshHash⟩, old, hold, oldBlock, oldHash⟩ := rows₂
  obtain ⟨_, new, hnew, newBlock, newHash⟩ := rows₃
  obtain ⟨reorg, _⟩ := no_silent_overwrite served
    (show Fork.written.history = [v₃] ++ v₂ :: v₁ :: [v₀] from contents)
  obtain ⟨_, moved, _⟩ := no_silent_overwrite served
    (show Fork.written.history = [] ++ v₃ :: v₂ :: [v₁, v₀] from contents)
  replace reorg := reorg 1 stale fresh hstale hfresh
  replace moved := moved "0xf0" old new hold hnew
  rw [staleHash, freshHash] at reorg
  rw [oldBlock, oldHash, newBlock, newHash] at moved
  exact ⟨v₃, v₂, v₁, v₀, served, contents, reorg (by decide), moved (by decide)⟩

end ChainIndex
