import ChainIndex.Proofs.Index.Reorgs
import ChainIndex.Proofs.Store.Fallible

/-!
# Windows that are not finished

One round of an index run asks for the head, asks for the next window and absorbs it.  Any call of
the store may fail on the way.  `Exit` lists what can happen to a window, with what it leaves in the
store, and `exit_on` says that there is nothing else.

* The checkpoint moves in one exit alone, behind a batch that was written as a whole.
* A run that steps back has written one issue at most, and no row.
* A window without a first block leaves the issues of its failed results at most.
* A write that fails leaves its table as it was, and those behind it untouched (`Halfway`).
* A number out of range breaks the run off before the checkpoint moves.

A failed call may hide why the run is over: where the issues of a window without a first block
cannot be written, the run ends with the fault of the store.
-/

namespace ChainIndex

open FallibleBackend

variable {σ α β : Type} [Backend σ] [FallibleBackend σ]

/-! ## Lookups -/

/-- A program leaves the content of a store as it is. -/
def Looks (program : Checked σ α) : Prop := ∀ s, content (program.on s).2 = content s

namespace Looks

theorem pure (a : α) : Looks (Pure.pure a : Checked σ α) := fun _ => rfl

theorem bind {program : Checked σ α} {next : α → Checked σ β} (h : Looks program)
    (hnext : ∀ a, Looks (next a)) : Looks (program >>= next) := by
  intro s
  have same := h s
  rcases done : program.on s with ⟨halt | a, s₁⟩
  · rw [done] at same
    rw [Effect.on_bind_error done]
    exact same
  · rw [done] at same
    rw [Effect.on_bind_ok done]
    exact (hnext a s₁).trans same

theorem ite {p : Prop} [Decidable p] {program other : Checked σ α} (yes : Looks program)
    (no : Looks other) : Looks (if p then program else other) := by
  split
  case isTrue => exact yes
  case isFalse => exact no

theorem inRange (p : Prop) [Decidable p] : Looks (Effect.inRange p : Checked σ Unit) :=
  .ite (.pure ()) fun _ => rfl

theorem of_attempts {action : Action σ α} {good : σ → α → Prop}
    (h : ∀ s, Attempts content action s fun a left => left = content s ∧ good s a) :
    Looks action.checked := by
  intro s
  rw [Effect.on_checked]
  rcases h s with ⟨a, s₁, done, same, _⟩ | ⟨reason, s₁, fails, same⟩
  · rw [done]
    exact same
  · rw [fails]
    exact same

end Looks

namespace Batch

/-- A classification writes nothing. -/
theorem looks_prepare (options : ClassifyOptions) (results : List BlockResult) :
    Looks (prepare options results : Checked σ Batch) := by
  rw [prepare]
  refine .ite (.pure _) ?_
  refine .bind (.of_attempts fun s => getBlocks_on s _) fun stored => ?_
  refine .bind (.of_attempts fun s => getBlocksByHashes_on s _) fun sharing => ?_
  refine .bind (.inRange _) fun _ => ?_
  refine .ite (.pure _) ?_
  exact .bind (.of_attempts fun s => getTransactions_on s _) fun known => .pure _

/-- The check before a window finds the reorg issue of its first block, or fails. -/
theorem leadingReorg_attempts (first : Block) (s : σ) :
    Attempts content (leadingReorg? first) s fun issue left => left = content s ∧
      issue = (content s).reorg? first.numberWord first.hashNormalized := by
  rw [leadingReorg?]
  rcases getBlocks_on s [first.numberWord] with ⟨rows, s₁, found, same, hrows⟩ | ⟨reason, s₁, fails, same⟩
  · exact .inl ⟨_, s₁, Effect.on_bind_ok found, same,
      IndexRun.reorg?_of_rows first block_number hrows⟩
  · exact .inr ⟨reason, s₁, Effect.on_bind_error fails, same⟩

/-! ## Batches that are not persisted as a whole -/

theorem recordIssues_attempts (b : Batch) (s : σ) :
    Attempts content b.recordIssues s fun count left =>
      count = (appendIssues (content s).log b.issues).1 ∧ left = (content s).addIssues b.issues := by
  rw [recordIssues]
  cases h : b.issues with
  | nil => exact .of_ok rfl ⟨rfl, rfl⟩
  | cons i rest => exact saveIssues_on s (i :: rest)

theorem storeBlocks_attempts (b : Batch) (s : σ) :
    Attempts content b.storeBlocks s fun _ left =>
      left = (content s).putBlocks (b.newBlocks ++ b.changedBlocks) := by
  rw [storeBlocks]
  split
  case isTrue h =>
    simp only [Bool.and_eq_true, List.isEmpty_iff] at h
    rw [h.1, h.2]
    exact .of_ok rfl rfl
  case isFalse => exact saveBlocks_on s b.newBlocks b.changedBlocks

theorem storeTransactions_attempts (b : Batch) (s : σ) :
    Attempts content b.storeTransactions s fun _ left =>
      left = (content s).putTransactions (b.newTransactions ++ b.changedTransactions) := by
  rw [storeTransactions]
  split
  case isTrue h =>
    simp only [Bool.and_eq_true, List.isEmpty_iff] at h
    rw [h.1, h.2]
    exact .of_ok rfl rfl
  case isFalse => exact saveTransactions_on s b.newTransactions b.changedTransactions

/-- How a batch is left where one of its writes fails: with the writes before it, and nothing of its
own. -/
inductive Halfway (b : Batch) (s : σ) : CrawlFault → σ → Prop
  /-- The issues are not written. -/
  | issues {reason : String} {s' : σ} (fails : b.recordIssues.on s = (.error (.storage reason), s'))
      (left : content s' = content s) : Halfway b s (.storage reason) s'
  /-- The blocks are not written. -/
  | blocks {count : Nat} {reason : String} {s₁ s' : σ}
      (recorded : b.recordIssues.on s = (.ok count, s₁))
      (fails : b.storeBlocks.on s₁ = (.error (.storage reason), s'))
      (left : content s' = (content s).addIssues b.issues) : Halfway b s (.storage reason) s'
  /-- The transactions are not written. -/
  | transactions {count : Nat} {reason : String} {s₁ s₂ s' : σ}
      (recorded : b.recordIssues.on s = (.ok count, s₁)) (stored : b.storeBlocks.on s₁ = (.ok (), s₂))
      (fails : b.storeTransactions.on s₂ = (.error (.storage reason), s'))
      (left : content s' =
        ((content s).addIssues b.issues).putBlocks (b.newBlocks ++ b.changedBlocks)) :
      Halfway b s (.storage reason) s'

/-- A batch is persisted as a whole, or left halfway. -/
theorem persist_cases (b : Batch) (s : σ) :
    (∃ count s', b.persist.on s = (.ok count, s') ∧ content s' = b.stage (content s) 3) ∨
      ∃ fault s', b.persist.on s = (.error fault, s') ∧ Halfway b s fault s' := by
  rw [persist]
  rcases recordIssues_attempts b s with ⟨count, s₁, h₁, _, v₁⟩ | ⟨reason, s₁, h₁, v₁⟩
  case inr => exact .inr ⟨_, s₁, Effect.on_bind_error h₁, .issues h₁ v₁⟩
  rw [Effect.on_bind_ok h₁]
  rcases storeBlocks_attempts b s₁ with ⟨_, s₂, h₂, v₂⟩ | ⟨reason, s₂, h₂, v₂⟩
  case inr => exact .inr ⟨_, s₂, Effect.on_bind_error h₂, .blocks h₁ h₂ (v₂.trans v₁)⟩
  rw [Effect.on_bind_ok h₂]
  rw [v₁] at v₂
  rcases storeTransactions_attempts b s₂ with ⟨_, s₃, h₃, v₃⟩ | ⟨reason, s₃, h₃, v₃⟩
  case inr =>
    exact .inr ⟨_, s₃, Effect.on_bind_error h₃, .transactions h₁ h₂ h₃ (v₃.trans v₂)⟩
  rw [Effect.on_bind_ok h₃]
  rw [v₂] at v₃
  exact .inl ⟨count, s₃, rfl, v₃⟩

theorem Halfway.checkpoint? {b : Batch} {s s' : σ} {fault : CrawlFault}
    (h : Halfway b s fault s') : (content s').checkpoint? = (content s).checkpoint? := by
  cases h with
  | issues _ left => rw [left]
  | blocks _ _ left => rw [left]; rfl
  | transactions _ _ _ left => rw [left]; rfl

end Batch

/-- The issues of the results without a block. -/
def Batch.failureIssues (results : List BlockResult) : List Issue :=
  (results.filter fun r => !r.isOk).map failureIssue

/-- A log that gets one issue. -/
theorem View.log_addIssues_one (v : View) (issue : Issue) :
    (v.addIssues [issue]).log = if Recorded v.log issue then v.log else v.log ++ [issue] := by
  rw [addIssues, appendIssues]
  split <;> rfl

/-! ## Exits of a window -/

namespace IndexRun

/-- How a window ends, and the store that this leaves. -/
inductive Exit (plan : IndexPlan) (r : IndexRun) (last : UInt64) (results : List BlockResult)
    (s : σ) : Except Halt IndexRun → σ → Prop
  /-- The first block is stored with another hash.  Its issue is written, and the run steps
  back. -/
  | rewinds {block : Block} {issue : Issue} {count : Nat} {s' : σ}
      (first : leadingBlock? results = some block)
      (changed : (content s).reorg? block.numberWord block.hashNormalized = some issue)
      (left : content s' = (content s).addIssues [issue]) :
      Exit plan r last results s (.ok (r.steppedBack plan count)) s'
  /-- The batch of the window is written as a whole, and the checkpoint is saved. -/
  | stores {batch : Batch} {count : Nat} {before looked stored s' : σ}
      (same : content before = content s)
      (classified : (Batch.prepare plan.options results).on before = (.ok batch, looked))
      (persisted : batch.persist.on looked = (.ok count, stored))
      (moved : (Backend.saveCheckpoint .index (batch.firstFailed.getD (last + 1))).on stored =
        (.ok (), s')) :
      Exit plan r last results s
        (.ok (r.wentOn last (batch.firstFailed.getD (last + 1)) batch count)) s'
  /-- The first result has no block.  The issues of such results are written, and the run is
  over. -/
  | givesUp {reason : String} {s' : σ} (first : leadingBlock? results = none)
      (left : content s' = (content s).addIssues (Batch.failureIssues results)) :
      Exit plan r last results s (.error (.fault (.windowUnclassifiable r.next last reason))) s'
  /-- A call fails, or the times do not fit, before anything is written. -/
  | refused {halt : Halt} {s' : σ} (left : content s' = content s) :
      Exit plan r last results s (.error halt) s'
  /-- A write of the batch fails. -/
  | halfway {block : Block} {batch : Batch} {fault : CrawlFault} {looked s' : σ}
      (first : leadingBlock? results = some block) (same : content looked = content s)
      (left : batch.Halfway looked fault s') :
      Exit plan r last results s (.error (.fault fault)) s'
  /-- The checkpoint is not saved, or there is no number behind the window. -/
  | unmoved {block : Block} {batch : Batch} {halt : Halt} {s' : σ}
      (first : leadingBlock? results = some block)
      (left : content s' = batch.stage (content s) 3) :
      Exit plan r last results s (.error halt) s'

variable {plan : IndexPlan} {r : IndexRun} {last : UInt64} {results : List BlockResult} {s : σ}

theorem leadingBlock?_eq_some {block : Block} (h : leadingBlock? results = some block) :
    ∃ result rest, results = result :: rest ∧ result.block = some block ∧ result.fault = none := by
  cases results with
  | nil => cases h
  | cons result rest =>
    rw [leadingBlock?] at h
    split at h
    case isTrue hfault => exact ⟨result, rest, rfl, h, Option.isNone_iff_eq_none.mp hfault⟩
    case isFalse => cases h

/-- A window without a first block ends the run.  The issues of its failed results are written, or
the call that writes them fails. -/
theorem absorb_missing (plan : IndexPlan) (r : IndexRun) (last : UInt64) (s : σ)
    (first : leadingBlock? results = none) :
    (∃ reason s', (r.absorb plan last results).on s =
        (.error (.fault (.windowUnclassifiable r.next last reason)), s') ∧
      content s' = (content s).addIssues (Batch.failureIssues results)) ∨
    ∃ reason s', (Backend.saveIssues (Batch.failureIssues results)).on s =
        (.error (.storage reason), s') ∧
      (r.absorb plan last results).on s = (.error (.fault (.storage reason)), s') ∧
      content s' = content s := by
  cases results with
  | nil => exact .inl ⟨_, s, rfl, rfl⟩
  | cons result rest =>
    have gives : r.absorb plan last (result :: rest) =
        ((giveUp r.next last result (result :: rest)).checked : Checked σ IndexRun) := by
      simp only [absorb]
      split
      case h_1 block hblock hfault =>
        rw [leadingBlock?, hfault, hblock] at first
        cases first
      case h_2 => rfl
    rw [gives, giveUp]
    rcases saveIssues_on s (Batch.failureIssues (result :: rest)) with
      ⟨count, s', saved, _, left⟩ | ⟨reason, s', fails, left⟩
    · exact .inl ⟨_, s', Effect.on_checked_error (Effect.on_bind_ok saved), left⟩
    · exact .inr ⟨reason, s', fails, Effect.on_checked_error (Effect.on_bind_error fails), left⟩

theorem exit_of_stepBack {block : Block} {issue : Issue} {before : σ}
    (first : leadingBlock? results = some block) (same : content before = content s)
    (changed : (content s).reorg? block.numberWord block.hashNormalized = some issue) :
    Exit plan r last results s ((r.stepBack plan issue).checked.on before).1
      ((r.stepBack plan issue).checked.on before).2 := by
  rw [stepBack, Effect.on_checked]
  rcases saveIssues_on before [issue] with ⟨count, s', saved, _, left⟩ | ⟨reason, s', fails, left⟩
  · rw [Effect.on_bind_ok saved]
    exact .rewinds first changed (same ▸ left)
  · rw [Effect.on_bind_error fails]
    exact .refused (left.trans same)

theorem exit_of_storeWindow {block : Block} {before : σ}
    (first : leadingBlock? results = some block) (same : content before = content s) :
    Exit plan r last results s ((r.storeWindow plan last results).on before).1
      ((r.storeWindow plan last results).on before).2 := by
  rw [storeWindow]
  have looks := Batch.looks_prepare plan.options results before
  rcases classified : (Batch.prepare plan.options results).on before with ⟨halt | batch, looked⟩
  case error =>
    rw [classified] at looks
    rw [Effect.on_bind_error classified]
    exact .refused (looks.trans same)
  rw [classified] at looks
  rw [Effect.on_bind_ok classified]
  rcases Batch.persist_cases batch looked with ⟨count, stored, persisted, rows⟩ | ⟨fault, s', fails, left⟩
  case inr =>
    rw [Effect.on_bind_error (Effect.on_checked_error fails)]
    exact .halfway first (looks.trans same) left
  rw [Effect.on_bind_ok (Effect.on_checked_ok persisted)]
  have whole : content stored = batch.stage (content s) 3 := by rw [rows, looks, same]
  by_cases countable : last ≠ Window.greatest
  case neg =>
    rw [Effect.on_outOfRange countable]
    exact .unmoved first whole
  rw [Effect.on_inRange countable]
  dsimp only
  rcases saveCheckpoint_on stored .index (batch.firstFailed.getD (last + 1)) with
    ⟨_, s', moved, _⟩ | ⟨reason, s', fails, left⟩
  · rw [Effect.on_bind_ok (Effect.on_checked_ok moved)]
    exact .stores same classified persisted moved
  · rw [Effect.on_bind_error (Effect.on_checked_error fails)]
    exact .unmoved first (left.trans whole)

/-- A window has one of these exits. -/
theorem exit_on (plan : IndexPlan) (r : IndexRun) (last : UInt64) (results : List BlockResult)
    (s : σ) :
    Exit plan r last results s ((r.absorb plan last results).on s).1
      ((r.absorb plan last results).on s).2 := by
  cases first : leadingBlock? results with
  | none =>
    rcases absorb_missing plan r last s first with ⟨reason, s', done, left⟩ | ⟨reason, s', _, done, left⟩
    · rw [done]
      exact .givesUp first left
    · rw [done]
      exact .refused left
  | some block =>
    obtain ⟨result, rest, rfl, hblock, hfault⟩ := leadingBlock?_eq_some first
    simp only [absorb, hblock, hfault]
    split
    case isFalse =>
      rw [pure_bind]
      exact exit_of_storeWindow first rfl
    case isTrue =>
      rcases Batch.leadingReorg_attempts block s with
        ⟨issue, before, found, same, changed⟩ | ⟨reason, before, fails, same⟩
      case inr =>
        rw [Effect.on_bind_error (Effect.on_checked_error fails)]
        exact .refused same
      rw [Effect.on_bind_ok (Effect.on_checked_ok found)]
      cases issue with
      | none => exact exit_of_storeWindow first same
      | some issue => exact exit_of_stepBack first same changed.symm

namespace Exit

variable {result : Except Halt IndexRun} {s' : σ}

/-- The checkpoints stay as they are, or the call that ended the window has saved one. -/
theorem checkpoint? (h : Exit plan r last results s result s') :
    (content s').checkpoint? = (content s).checkpoint? ∨
      ∃ (batch : Batch) (count : Nat) (before looked stored : σ), content before = content s ∧
        (Batch.prepare plan.options results).on before = (.ok batch, looked) ∧
        batch.persist.on looked = (.ok count, stored) ∧
        (Backend.saveCheckpoint .index (batch.firstFailed.getD (last + 1))).on stored =
          (.ok (), s') ∧
        result = .ok (r.wentOn last (batch.firstFailed.getD (last + 1)) batch count) := by
  cases h with
  | rewinds _ _ left => exact .inl (congrArg View.checkpoint? left :)
  | stores same classified persisted moved =>
    exact .inr ⟨_, _, _, _, _, same, classified, persisted, moved, rfl⟩
  | givesUp _ left => exact .inl (congrArg View.checkpoint? left :)
  | refused left => exact .inl (congrArg View.checkpoint? left)
  | halfway _ same left => exact .inl (left.checkpoint?.trans (congrArg View.checkpoint? same))
  | unmoved _ left =>
    rw [left]
    exact .inl (Batch.checkpoint?_stage ..)

/-- A run that goes on without having stored its window has stepped back. -/
theorem rewound {r' : IndexRun} (h : Exit plan r last results s (.ok r') s')
    (unstored : r'.report.windows = r.report.windows) :
    (∃ block row, leadingBlock? results = some block ∧
      (content s).block? block.numberWord = some row ∧ row.hash ≠ block.hashNormalized ∧
      content s' = (content s).addIssues
        [Issue.reorg block.numberWord row.hash block.hashNormalized]) ∧
    r'.next = Window.subSaturating r.next plan.rewindDepth := by
  cases h with
  | @rewinds block _ _ _ first changed left =>
    obtain ⟨row, stored, other, rfl⟩ := View.reorg?_eq_some.mp changed
    exact ⟨⟨block, row, first, stored, other, left⟩, rfl⟩
  | @stores batch => exact absurd unstored (Nat.succ_ne_self r.report.windows)

end Exit

end IndexRun

/-! ## Rounds -/

/-- One round of a run: it gets the head and, where that makes it ask for a window, the slots of the
window, each with a result. -/
def IndexPhase.round (plan : IndexPlan) (run : IndexRun) (head : Except CrawlFault HeadResult)
    (window : Except CrawlFault (List BlockResult)) : StateM σ IndexPhase :=
  ((askHead run).onHead plan head).onSlots plan (window.map (List.map some))

omit [Backend σ] [FallibleBackend σ] in
theorem IndexPhase.of_ofResult_askHead {result : Except Halt IndexRun} {run : IndexRun}
    (h : ofResult result = askHead run) : result = .ok run := by
  rcases result with (fault | _) | other <;> cases h
  rfl

omit [FallibleBackend σ] in
/-- The results of a window are absorbed where they can be counted. -/
theorem IndexPhase.onSlots_results (plan : IndexPlan) (run : IndexRun) (last : UInt64)
    (results : List BlockResult) (s : σ) :
    (askWindow run last).onSlots plan (.ok (results.map some)) s =
      if Window.CanCount run.next results.length then
        (ofResult ((run.absorb plan last results).on s).1, ((run.absorb plan last results).on s).2)
      else (.broken, s) := by
  have length : (results.map some).length = results.length := List.length_map some
  split
  case isTrue countable =>
    rw [onSlots_ok plan run last s (length.symm ▸ countable), windowResults_some]
    exact ofStep_eq (run.absorb plan last results) s
  case isFalse uncountable =>
    exact onSlots_broken plan run last s (length.symm ▸ uncountable)

omit [FallibleBackend σ] in
/-- A round absorbs a window, or the run is over without a call of the store. -/
theorem IndexPhase.round_cases (plan : IndexPlan) (run : IndexRun)
    (head : Except CrawlFault HeadResult) (window : Except CrawlFault (List BlockResult)) (s : σ) :
    (∃ last results, (askHead run).onHead plan head = askWindow run last ∧ window = .ok results ∧
      round plan run head window s = (ofResult ((run.absorb plan last results).on s).1,
        ((run.absorb plan last results).on s).2)) ∨
    (∃ result, round plan run head window s = (ended result, s)) ∨
    round plan run head window s = (.broken, s) := by
  rw [round]
  cases asked : (askHead run).onHead plan head with
  | askHead other =>
    simp only [onHead] at asked
    split at asked
    case h_1 => cases asked
    case h_2 => split at asked <;> cases asked
  | ended result => exact .inr (.inl ⟨result, by cases window <;> rfl⟩)
  | broken => exact .inr (.inr (by cases window <;> rfl))
  | askWindow other last =>
    have same : other = run := by
      simp only [onHead] at asked
      split at asked
      case h_1 => cases asked
      case h_2 =>
        split at asked
        case isTrue => cases asked
        case isFalse =>
          cases asked
          rfl
    cases window with
    | error fault => exact .inr (.inl ⟨.error fault, rfl⟩)
    | ok results =>
      rw [same]
      have absorbs := onSlots_results plan run last results s
      split at absorbs
      case isTrue => exact .inl ⟨last, results, rfl, rfl, absorbs⟩
      case isFalse => exact .inr (.inr absorbs)

/-- Whichever calls of the store fail, one round of an index run keeps to this.

* The checkpoints stay as they are, unless the round ends with a call that saves the one of the
  index, behind a batch that was classified and persisted.
* Where the run goes on without having stored a window, both tables are as they were, the log has
  got one issue at most, the reorg of the window's first block, and the run has stepped back.
* Where a window is fetched that has no first block, both tables and the checkpoints are as they
  were, and the run is over: as not classifiable, with the issues of the failed results written, or
  with the fault of the call that should have written them, and the same log.  A window that cannot
  be counted breaks the run off instead, with the same log.
* A batch that is not persisted as a whole leaves the table of the failed write, and those that are
  written behind it, as they were. -/
theorem unfinished_window_keeps_checkpoint (plan : IndexPlan) (run : IndexRun)
    (head : Except CrawlFault HeadResult) (window : Except CrawlFault (List BlockResult)) (s : σ)
    {phase : IndexPhase} {s' : σ}
    (ended : IndexPhase.round plan run head window s = (phase, s')) :
    ((content s').checkpoint? = (content s).checkpoint? ∨
      ∃ (results : List BlockResult) (last : UInt64) (batch : Batch) (count : Nat)
        (before looked stored : σ), window = .ok results ∧ content before = content s ∧
        (Batch.prepare plan.options results).on before = (.ok batch, looked) ∧
        batch.persist.on looked = (.ok count, stored) ∧
        (Backend.saveCheckpoint .index (batch.firstFailed.getD (last + 1))).on stored =
          (.ok (), s') ∧
        phase = .askHead (run.wentOn last (batch.firstFailed.getD (last + 1)) batch count)) ∧
    (∀ run', phase = .askHead run' → run'.report.windows = run.report.windows →
      (content s').block? = (content s).block? ∧
      (content s').transaction? = (content s).transaction? ∧
      (∃ results block row, window = .ok results ∧ IndexRun.leadingBlock? results = some block ∧
        (content s).block? block.numberWord = some row ∧ row.hash ≠ block.hashNormalized ∧
        (block.verify run.next = .ok () → block.numberWord = run.next) ∧
        let issue := Issue.reorg block.numberWord row.hash block.hashNormalized
        (content s').log =
          if Recorded (content s).log issue then (content s).log else (content s).log ++ [issue]) ∧
      run'.next.toNat = run.next.toNat - plan.rewindDepth.toNat) ∧
    (∀ last results, (IndexPhase.askHead run).onHead plan head = .askWindow run last →
      window = .ok results → IndexRun.leadingBlock? results = none →
      (content s').block? = (content s).block? ∧
      (content s').transaction? = (content s).transaction? ∧
      (content s').checkpoint? = (content s).checkpoint? ∧
      ((∃ reason, phase = .ended (.error (.windowUnclassifiable run.next last reason)) ∧
          (content s').log = (appendIssues (content s).log (Batch.failureIssues results)).2) ∨
        (∃ reason, (Backend.saveIssues (Batch.failureIssues results)).on s =
            (.error (.storage reason), s') ∧
          phase = .ended (.error (.storage reason)) ∧ (content s').log = (content s).log) ∨
        (phase = .broken ∧ ¬ Window.CanCount run.next results.length ∧
          (content s').log = (content s).log))) ∧
    ∀ (batch : Batch) (before after : σ) (fault : CrawlFault),
      batch.persist.on before = (.error fault, after) → batch.Halfway before fault after := by
  refine ⟨?checkpoint, ?rewound, ?missing, ?halfway⟩
  case checkpoint =>
    rcases IndexPhase.round_cases plan run head window s with
      ⟨last, results, _, rfl, done⟩ | ⟨result, done⟩ | done
    · obtain ⟨rfl, rfl⟩ := Prod.mk.inj (ended.symm.trans done)
      refine (IndexRun.exit_on plan run last results s).checkpoint?.imp id ?_
      rintro ⟨batch, count, before, looked, stored, same, classified, persisted, moved, went⟩
      rw [went]
      exact ⟨_, _, _, _, _, _, _, rfl, same, classified, persisted, moved, rfl⟩
    · obtain ⟨rfl, rfl⟩ := Prod.mk.inj (ended.symm.trans done)
      exact .inl rfl
    · obtain ⟨rfl, rfl⟩ := Prod.mk.inj (ended.symm.trans done)
      exact .inl rfl
  case rewound =>
    rintro run' rfl unstored
    rcases IndexPhase.round_cases plan run head window s with
      ⟨last, results, _, rfl, done⟩ | ⟨result, done⟩ | done
    case inr.inl => cases ended.symm.trans done
    case inr.inr => cases ended.symm.trans done
    obtain ⟨goes, rfl⟩ := Prod.mk.inj (ended.symm.trans done)
    have exits := IndexRun.exit_on plan run last results s
    rw [IndexPhase.of_ofResult_askHead goes.symm] at exits
    obtain ⟨⟨block, row, first, stored, changed, left⟩, next⟩ := exits.rewound unstored
    refine ⟨?_, ?_, ⟨results, block, row, rfl, first, stored, changed,
      Block.numberWord_of_verify, ?_⟩, ?_⟩
    · rw [left]
      rfl
    · rw [left]
      rfl
    · rw [left]
      exact View.log_addIssues_one ..
    · rw [next, Window.toNat_subSaturating]
  case missing =>
    rintro last results asked rfl first
    rw [IndexPhase.round, asked, Except.map, IndexPhase.onSlots_results] at ended
    split at ended
    case isFalse uncountable =>
      obtain ⟨rfl, rfl⟩ := Prod.mk.inj ended
      exact ⟨rfl, rfl, rfl, .inr (.inr ⟨rfl, uncountable, rfl⟩)⟩
    rcases IndexRun.absorb_missing plan run last s first with
      ⟨reason, left, done, written⟩ | ⟨reason, left, fails, done, same⟩
    · rw [done] at ended
      obtain ⟨rfl, rfl⟩ := Prod.mk.inj ended
      refine ⟨?_, ?_, ?_, .inl ⟨reason, rfl, ?_⟩⟩
      all_goals rw [written]; rfl
    · rw [done] at ended
      obtain ⟨rfl, rfl⟩ := Prod.mk.inj ended
      rw [same]
      exact ⟨rfl, rfl, rfl, .inr (.inl ⟨reason, fails, rfl, rfl⟩)⟩
  case halfway =>
    intro batch before after fault fails
    rcases Batch.persist_cases batch before with
      ⟨count, whole, persisted, _⟩ | ⟨other, left, broken, halfway⟩
    · cases persisted.symm.trans fails
    · cases fails.symm.trans broken
      exact halfway

namespace OneBlock

/-- The result of a fetch that failed. -/
def missing : BlockResult := ⟨1, none, none, some (.transport "timeout"), 0⟩

/-- The plan of a run that steps back by one block. -/
def cautious : IndexPlan := { plan with rewindDepth := 1 }

/-- A store that has another block under the number of the block. -/
def forked : MemoryStore :=
  { (default : MemoryStore) with
    blocks := Table.insert default (BlockRow.ofBlock { number := "0x1", hash := "0xaa" }) }

/-- The run steps back from a block that is stored with another hash. -/
theorem rewinds :
    ∃ run' s', IndexPhase.round cautious first (.ok ⟨some 1, none⟩) (.ok [result]) forked =
        (.askHead run', s') ∧ run'.report.windows = first.report.windows := by
  have stored : forked.block? 1 = some (BlockRow.ofBlock { number := "0x1", hash := "0xaa" }) := by
    decide +kernel
  have changed : (LawfulBackend.view forked).reorg? block.numberWord block.hashNormalized =
      some (Issue.reorg 1 "0xaa" "0xab") := by
    have number : block.numberWord = 1 := by decide +kernel
    have old : (BlockRow.ofBlock { number := "0x1", hash := "0xaa" }).hash = "0xaa" := by
      decide +kernel
    have new : block.hashNormalized = "0xab" := by decide +kernel
    rw [number, new]
    exact View.reorg?_eq_some.mpr ⟨_, stored, by rw [old]; decide, by rw [old]⟩
  obtain ⟨inserted, s', absorbed, _⟩ := IndexRun.absorb_stepsBack cautious first 1
    (show LawfulBackend.Sturdy forked from rfl)
    (show IndexRun.leadingBlock? [result] = some block from rfl) (by decide) (by decide) changed
  refine ⟨first.steppedBack cautious inserted, s', ?_, rfl⟩
  rw [IndexPhase.round, asks_window, Except.map, IndexPhase.onSlots_results, if_pos (by decide),
    absorbed]
  rfl

end OneBlock

/-- A batch of an issue and of the block. -/
def OneBlock.batch : Batch :=
  { issues := [Issue.failure 2 "" "" "timeout"], newBlocks := [BlockRow.ofBlock block] }

/-- An empty store that carries out one call and fails at the next. -/
def OneBlock.interrupted : Interrupted MemoryStore := ⟨default, [none, some "disk full"]⟩

theorem unfinished_window_keeps_checkpoint_of_one_block :
    (∃ run' s', IndexPhase.round OneBlock.cautious OneBlock.first (.ok ⟨some 1, none⟩)
        (.ok [OneBlock.result]) OneBlock.forked = (.askHead run', s') ∧
      (content s').block? = (content OneBlock.forked).block? ∧ run'.next.toNat = 0) ∧
    (∃ phase s', IndexPhase.round OneBlock.plan OneBlock.first (.ok ⟨some 1, none⟩)
        (.ok [OneBlock.missing]) (default : MemoryStore) = (phase, s') ∧
      (content s').block? = (content (default : MemoryStore)).block?) ∧
    ∃ after, OneBlock.batch.persist.on OneBlock.interrupted =
        (.error (.storage "disk full"), after) ∧
      OneBlock.batch.Halfway OneBlock.interrupted (.storage "disk full") after := by
  refine ⟨?_, ?_, ?_⟩
  · obtain ⟨run', s', goes, unstored⟩ := OneBlock.rewinds
    obtain ⟨_, rewound, _⟩ := unfinished_window_keeps_checkpoint OneBlock.cautious OneBlock.first
      (.ok ⟨some 1, none⟩) (.ok [OneBlock.result]) OneBlock.forked goes
    obtain ⟨blocks, _, _, next⟩ := rewound run' rfl unstored
    exact ⟨run', s', goes, blocks, next⟩
  · obtain ⟨_, _, missing, _⟩ := unfinished_window_keeps_checkpoint OneBlock.plan OneBlock.first
      (.ok ⟨some 1, none⟩) (.ok [OneBlock.missing]) (default : MemoryStore) rfl
    exact ⟨_, _, rfl, (missing 1 _ (OneBlock.asks_window OneBlock.plan) rfl rfl).1⟩
  · have fails : OneBlock.batch.persist.on OneBlock.interrupted = (.error (.storage "disk full"),
        ⟨{ (default : MemoryStore) with log := OneBlock.batch.issues }, []⟩) := rfl
    obtain ⟨_, _, _, halfway⟩ := unfinished_window_keeps_checkpoint OneBlock.plan OneBlock.first
      (.error (.storage "offline")) (.ok []) OneBlock.interrupted rfl
    exact ⟨_, fails, halfway _ _ _ _ fails⟩

/-- Where the issues of a window without a first block cannot be written, the run ends with the fault
of the store, and not with the window that cannot be classified. -/
theorem unwritten_issues_hide_missing_block :
    (IndexPhase.askHead OneBlock.first).onHead OneBlock.plan (.ok ⟨some 1, none⟩) =
      .askWindow OneBlock.first 1 ∧
    IndexRun.leadingBlock? [OneBlock.missing] = none ∧
    let store := (default : MemoryStore).failOn .saveIssues
    let phase := (IndexPhase.round OneBlock.plan OneBlock.first (.ok ⟨some 1, none⟩)
      (.ok [OneBlock.missing]) store).1
    phase = .ended (.error (.storage "injected failure: SaveIssues")) ∧
    ∀ first last reason, phase ≠ .ended (.error (.windowUnclassifiable first last reason)) := by
  have phase : (IndexPhase.round OneBlock.plan OneBlock.first (.ok ⟨some 1, none⟩)
      (.ok [OneBlock.missing]) ((default : MemoryStore).failOn .saveIssues)).1 =
      .ended (.error (.storage "injected failure: SaveIssues")) := by
    rw [IndexPhase.round, OneBlock.asks_window]
    rfl
  refine ⟨OneBlock.asks_window _, rfl, phase, ?_⟩
  intro first last reason other
  cases phase.symm.trans other

end ChainIndex
