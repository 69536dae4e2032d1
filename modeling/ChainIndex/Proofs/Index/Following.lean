import ChainIndex.Proofs.Index.Steps
import ChainIndex.Proofs.Store.Following

/-!
# Index runs on a store around another

What is classified, persisted and indexed on a store around another is what would be on the store in
it alone.  So a run on the inner store is a run on the outer one, with whatever that notes
(`IndexSteps.lift`).
-/

namespace ChainIndex

variable {τ σ : Type} [Backend τ] [Backend σ] [Around τ σ]

open Around

/-! ## Batches -/

namespace Batch

theorem follows_prepare (options : ClassifyOptions) (results : List BlockResult) :
    Follows inner (prepare options results : Checked τ Batch) (prepare options results) := by
  rw [prepare, prepare]
  refine .ite (.pure _) ?_
  refine .bind (.checked (getBlocks _)) fun stored => ?_
  refine .bind (.checked (getBlocksByHashes _)) fun sharing => .bind (.inRange _) fun _ => ?_
  exact .ite (.pure _) (.bind (.checked (getTransactions _)) fun known => .pure _)

theorem follows_persist (b : Batch) : Follows inner (b.persist : Action τ Nat) b.persist := by
  refine .bind (.ite (.pure _) (saveIssues _)) fun inserted => ?_
  refine .bind (.ite (.pure _) (saveBlocks _ _)) fun _ => ?_
  exact .bind (.ite (.pure _) (saveTransactions _ _)) fun _ => .pure _

end Batch

/-! ## Windows -/

namespace IndexRun

theorem follows_storeWindow (plan : IndexPlan) (run : IndexRun) (last : UInt64)
    (results : List BlockResult) :
    Follows inner (run.storeWindow plan last results : Checked τ IndexRun)
      (run.storeWindow plan last results) := by
  refine .bind (Batch.follows_prepare plan.options results) fun batch => ?_
  refine .bind (.checked (Batch.follows_persist batch)) fun inserted => .bind (.inRange _) fun _ => ?_
  exact .bind (.checked (saveCheckpoint _ _)) fun _ => .pure _

theorem follows_absorb (plan : IndexPlan) (run : IndexRun) (last : UInt64)
    (results : List BlockResult) :
    Follows inner (run.absorb plan last results : Checked τ IndexRun)
      (run.absorb plan last results) := by
  cases results with
  | nil => exact .throw _
  | cons result rest =>
    simp only [absorb]
    split
    case h_1 block _ _ =>
      split
      case isTrue =>
        refine .bind (.checked (.bind (getBlocks _) fun _ => .pure _)) fun issue => ?_
        cases issue with
        | none => exact follows_storeWindow plan run last _
        | some issue => exact .checked (.bind (saveIssues _) fun _ => .pure _)
      case isFalse =>
        rw [pure_bind, pure_bind]
        exact follows_storeWindow plan run last _
    case h_2 => exact .checked (.bind (saveIssues _) fun _ => .throw _)

theorem follows_start (order : IndexOrder) :
    Follows inner (start order : Action τ IndexRun) (start order) := by
  rw [start, start]
  exact .ite (.bind (getCheckpoint _) fun checkpoint => .pure _)
    (.bind (.pure none) fun checkpoint => .pure _)

end IndexRun

/-! ## Runs -/

namespace IndexPhase

theorem ofStep_follows {whole : Checked τ IndexRun} {step : Checked σ IndexRun}
    (h : Follows inner whole step) (w : τ) :
    ofStep step (inner w) = ((ofStep whole w).1, inner (ofStep whole w).2) := by
  obtain ⟨answer, left⟩ := h w
  rw [ofStep_eq, ofStep_eq, answer, left]

theorem start_follows (order : IndexOrder) (w : τ) :
    start order (inner w) = ((start order w).1, inner (start order w).2) :=
  ofStep_follows (IndexRun.follows_start order).checked w

end IndexPhase

variable {plan : IndexPlan} {answers : Answers}

/-- A step of a run on the inner store is one on the outer store. -/
theorem IndexStep.lift {phase : IndexPhase} {w : τ} {after : IndexPhase × σ}
    (step : IndexStep plan answers (phase, inner w) after) :
    ∃ w', IndexStep plan answers (phase, w) (after.1, w') ∧ inner w' = after.2 := by
  generalize here : (phase, inner w) = before at step
  cases step with
  | head answer allowed =>
    cases here
    exact ⟨w, .head answer allowed, rfl⟩
  | @window run last _ answer allowed =>
    cases here
    have step : IndexStep plan answers (.askWindow run last, w) _ := .window answer allowed
    cases answer with
    | error fault => exact ⟨w, step, rfl⟩
    | ok slots =>
      by_cases countable : Window.CanCount run.next slots.length
      case neg =>
        rw [IndexPhase.onSlots_broken plan run last _ countable] at step ⊢
        exact ⟨w, step, rfl⟩
      rw [IndexPhase.onSlots_ok plan run last _ countable] at step ⊢
      have follows := IndexPhase.ofStep_follows
        (IndexRun.follows_absorb plan run last (IndexPhase.windowResults run.next slots)) w
      refine ⟨_, ?_, (congrArg Prod.snd follows).symm⟩
      rw [IndexPhase.onWindow, follows]
      exact step

/-- A run on the inner store is one on the outer store. -/
theorem IndexSteps.lift {phase : IndexPhase} {w : τ} {after : IndexPhase × σ}
    (steps : IndexSteps plan answers (phase, inner w) after) :
    ∃ w', IndexSteps plan answers (phase, w) (after.1, w') ∧ inner w' = after.2 := by
  induction steps with
  | refl => exact ⟨w, .refl, rfl⟩
  | @tail middle after _ step ih =>
    obtain ⟨between, steps, same⟩ := ih
    obtain ⟨phase, s⟩ := middle
    cases same
    obtain ⟨w', step, left⟩ := step.lift
    exact ⟨w', steps.tail step, left⟩

end ChainIndex
