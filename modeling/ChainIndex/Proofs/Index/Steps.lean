import ChainIndex.Proofs.Batch.Evidence
import ChainIndex.Proofs.Batch.Given
import ChainIndex.Proofs.Index.Window
import ChainIndex.Proofs.Store.Lawful
import Mathlib.Logic.Relation

/-!
# Steps of an index run

`Outcome` lists what a window can do to a run and its store: the run steps back, or the window
is stored and the checkpoint moves, or the run is over, or a number is out of range.  `outcome_on`
says that there is nothing else.  Invariants of runs look at these cases, and not at the code.
`Absorbed` is the part of them that does not depend on reports and reorgs.

`IndexStep` is a step of a run with an answer from outside.  `Answers` says which answers there
may be.  The results of a window always have the numbers that were asked for.
-/

namespace ChainIndex

namespace Batch

/-! ## Good results of a window -/

/-- Where a run goes on after a window: at its first failed block, or behind it. -/
def nextAfter (results : List BlockResult) (last : UInt64) : UInt64 :=
  (failedNumbers results).min?.getD (last + 1)

theorem firstFailed_prepared {σ : Type} [Backend σ] [LawfulBackend σ] (options : ClassifyOptions)
    (results : List BlockResult) (s : σ) (last : UInt64) :
    (prepared options results s).firstFailed.getD (last + 1) = nextAfter results last := rfl

/-- The results of a window have numbers in the window. -/
theorem asked_bounds {results : List BlockResult} {first last : UInt64}
    (asked : results.map BlockResult.number = Window.numbers first last) {r : BlockResult}
    (hr : r ∈ results) : first ≤ r.number ∧ r.number ≤ last := by
  have window : r.number ∈ results.map BlockResult.number := List.mem_map_of_mem hr
  rw [asked] at window
  exact Window.mem_numbers.mp window

/-- The numbers of a window below the block where the run goes on belong to good results. -/
theorem good_below_next {results : List BlockResult} {first last n : UInt64}
    (asked : results.map BlockResult.number = Window.numbers first last) (hfirst : first ≤ n)
    (below : n < nextAfter results last) : ∃ r ∈ results, r.number = n ∧ ∃ b, sift r = .ok b := by
  rw [nextAfter] at below
  have inside : n ≤ last := by
    cases failed : (failedNumbers results).min? with
    | some f =>
      rw [failed, Option.getD_some] at below
      obtain ⟨r, hr, rfl, _⟩ := mem_failedNumbers.mp (List.min?_mem failed)
      exact UInt64.le_trans (UInt64.le_of_lt below) (asked_bounds asked hr).2
    | none =>
      rw [failed, Option.getD_none, UInt64.lt_iff_toNat_lt, UInt64.toNat_add,
        UInt64.toNat_one] at below
      have bound := last.toNat_lt
      rw [UInt64.le_iff_toNat_le]
      omega
  have window : n ∈ results.map BlockResult.number := by
    rw [asked]
    exact Window.mem_numbers.mpr ⟨hfirst, inside⟩
  obtain ⟨r, hr, rfl⟩ := List.mem_map.mp window
  refine ⟨r, hr, rfl, ?_⟩
  cases h : sift r with
  | ok b => exact ⟨b, rfl⟩
  | error issue =>
    -- then the run would go on at this number or below
    have failed := mem_failedNumbers.mpr ⟨r, hr, rfl, issue, h⟩
    cases least : (failedNumbers results).min? with
    | none => simp [List.min?_eq_none_iff.mp least] at failed
    | some f =>
      rw [least, Option.getD_some] at below
      have above := (List.min?_eq_some_iff.mp least).2 r.number failed
      exact absurd below (UInt64.not_lt.mpr above)

/-- A run goes on within its window, or right behind it. -/
theorem nextAfter_le {results : List BlockResult} {first stop last : UInt64}
    (asked : results.map BlockResult.number = Window.numbers first stop) (inside : stop ≤ last)
    (small : last < 0xFFFFFFFFFFFFFFFF) : nextAfter results stop ≤ last + 1 := by
  have behind := Window.lt_succ small
  rw [nextAfter]
  cases failed : (failedNumbers results).min? with
  | some f =>
    obtain ⟨r, hr, rfl, _⟩ := mem_failedNumbers.mp (List.min?_mem failed)
    have upper := UInt64.le_trans (asked_bounds asked hr).2 inside
    exact UInt64.le_trans upper (UInt64.le_of_lt behind)
  | none => exact Window.succ_le (UInt64.lt_of_le_of_lt inside behind)

end Batch

/-! ## Windows -/

variable {σ : Type} [Backend σ] [LawfulBackend σ]

open LawfulBackend

namespace IndexRun

/-- The block of the first result of a window. -/
def leadingBlock? : List BlockResult → Option Block
  | [] => none
  | result :: _ => if result.fault.isNone then result.block else none

/-- A run that has stepped back, and put `inserted` issues on record. -/
def steppedBack (plan : IndexPlan) (r : IndexRun) (inserted : Nat) : IndexRun :=
  { r with
    next := Window.subSaturating r.next plan.rewindDepth
    report := { r.report with issues := r.report.issues + inserted }
    reorged := some (max (r.reorged.getD r.next) r.next) }

/-- A run that has stored the batch of its window, which ends at `last`, and goes on at `next`. -/
def wentOn (r : IndexRun) (last next : UInt64) (b : Batch) (inserted : Nat) : IndexRun :=
  let report := b.tally r.report inserted
  { r with
    next := next
    report := { report with windows := report.windows + 1, nextBlock := next }
    reorged := r.reorged.filter fun block => last < block }

/-- How a run goes on with the results of its window, which ends at `last`, and the store that
this leaves. -/
inductive Outcome (plan : IndexPlan) (r : IndexRun) (last : UInt64) (results : List BlockResult)
    (s : σ) : Except Halt IndexRun → σ → Prop
  /-- The first block is stored with another hash.  Its issue is written, and the run steps
  back. -/
  | stepsBack {block : Block} {issue : Issue} {s' : σ} (first : leadingBlock? results = some block)
      (deep : 0 < plan.rewindDepth) (started : 0 < r.next)
      (changed : (view s).reorg? block.numberWord block.hashNormalized = some issue)
      (left : view s' = (view s).addIssues [issue]) (sturdy : Sturdy s → Sturdy s') :
      Outcome plan r last results s
        (.ok (r.steppedBack plan (appendIssues (view s).log [issue]).1)) s'
  /-- The window is stored, and the checkpoint moves to where the run goes on. -/
  | stores {block : Block} {stored s' : σ} (first : leadingBlock? results = some block)
      (stays : plan.rewindDepth = 0 ∨ r.next = 0 ∨
        (view s).reorg? block.numberWord block.hashNormalized = none)
      (fits : Batch.TimesFit (view s) results) (countable : last ≠ Window.greatest)
      (rows : view stored = (Batch.prepared plan.options results s).stage (view s) 3)
      (left : view s' =
        (view stored).setCheckpoint .index (raised stored .index (Batch.nextAfter results last)))
      (sturdy : Sturdy s → Sturdy s') :
      Outcome plan r last results s
        (.ok (r.wentOn last (Batch.nextAfter results last) (Batch.prepared plan.options results s)
          (appendIssues (view s).log (Batch.prepared plan.options results s).issues).1)) s'
  /-- The first result has no block.  The issues of such results are written, and the run is
  over. -/
  | givesUp {reason : String} {s' : σ} (first : leadingBlock? results = none)
      (left : view s' =
        (view s).addIssues ((results.filter fun r => !r.isOk).map Batch.failureIssue))
      (sturdy : Sturdy s → Sturdy s') :
      Outcome plan r last results s (.error (.fault (.windowUnclassifiable r.next last reason))) s'
  /-- A write fails, and the run is over. -/
  | breaksOff {reason : String} {s' : σ} (frail : ¬ Sturdy s) (k : Nat)
      (left : view s' = (Batch.prepared plan.options results s).stage (view s) k) :
      Outcome plan r last results s (.error (.fault (.storage reason))) s'
  /-- The times of the window do not fit.  Nothing is written. -/
  | outOfTime {block : Block} (first : leadingBlock? results = some block)
      (stays : plan.rewindDepth = 0 ∨ r.next = 0 ∨
        (view s).reorg? block.numberWord block.hashNormalized = none)
      (unfit : ¬ Batch.TimesFit (view s) results) :
      Outcome plan r last results s (.error .overflow) s
  /-- There is no number behind the window.  Its rows are stored already. -/
  | outOfNumbers {block : Block} {s' : σ} (first : leadingBlock? results = some block)
      (stays : plan.rewindDepth = 0 ∨ r.next = 0 ∨
        (view s).reorg? block.numberWord block.hashNormalized = none)
      (fits : Batch.TimesFit (view s) results) (end_greatest : last = Window.greatest)
      (left : view s' = (Batch.prepared plan.options results s).stage (view s) 3) :
      Outcome plan r last results s (.error .overflow) s'

variable {plan : IndexPlan} {r : IndexRun} {last : UInt64} {results : List BlockResult} {s : σ}

theorem giveUp_on (result : BlockResult) (first : leadingBlock? results = none) :
    Outcome plan r last results s ((giveUp r.next last result results).checked.on s).1
      ((giveUp r.next last result results).checked.on s).2 := by
  rw [giveUp, Effect.on_checked]
  rcases saveIssues_on s ((results.filter fun r => !r.isOk).map Batch.failureIssue) with
    ⟨s', saved, left, sturdy, _⟩ | ⟨frail, reason, fails⟩
  · rw [Effect.on_bind_ok saved]
    exact .givesUp first left sturdy
  · rw [Effect.on_bind_error fails]
    exact .breaksOff frail 0 rfl

theorem stepBack_on {block : Block} {issue : Issue} (first : leadingBlock? results = some block)
    (deep : 0 < plan.rewindDepth) (started : 0 < r.next)
    (changed : (view s).reorg? block.numberWord block.hashNormalized = some issue) :
    Outcome plan r last results s ((r.stepBack plan issue).checked.on s).1
      ((r.stepBack plan issue).checked.on s).2 := by
  rw [stepBack, Effect.on_checked]
  rcases saveIssues_on s [issue] with ⟨s', saved, left, sturdy, _⟩ | ⟨frail, reason, fails⟩
  · rw [Effect.on_bind_ok saved]
    exact .stepsBack first deep started changed left sturdy
  · rw [Effect.on_bind_error fails]
    exact .breaksOff frail 0 rfl

theorem storeWindow_on {block : Block} (first : leadingBlock? results = some block)
    (stays : plan.rewindDepth = 0 ∨ r.next = 0 ∨
      (view s).reorg? block.numberWord block.hashNormalized = none) :
    Outcome plan r last results s ((r.storeWindow plan last results).on s).1
      ((r.storeWindow plan last results).on s).2 := by
  rw [storeWindow]
  by_cases fits : Batch.TimesFit (view s) results
  case neg =>
    rw [Effect.on_bind_error (Batch.prepare_overflow fits)]
    exact .outOfTime first stays fits
  rw [Effect.on_bind_ok (Batch.prepare_ok fits)]
  rcases Batch.persist_on (Batch.prepared plan.options results s) s with
    ⟨stored, persisted, rows, kept, _⟩ | ⟨frail, k, _, s', reason, fails, left⟩
  case inr =>
    rw [Effect.on_bind_error (Effect.on_checked_error fails)]
    exact .breaksOff frail k left
  rw [Effect.on_bind_ok (Effect.on_checked_ok persisted)]
  by_cases countable : last ≠ Window.greatest
  case neg =>
    rw [Effect.on_outOfRange countable]
    exact .outOfNumbers first stays fits (not_not.mp countable) rows
  rw [Effect.on_inRange countable]
  dsimp only
  rw [Batch.firstFailed_prepared]
  rcases saveCheckpoint_on stored .index (Batch.nextAfter results last) with
    ⟨s', saved, left, sturdy, _⟩ | ⟨frail, reason, fails⟩
  · rw [Effect.on_bind_ok (Effect.on_checked_ok saved)]
    exact .stores first stays fits countable rows left (sturdy ∘ kept)
  · rw [Effect.on_bind_error (Effect.on_checked_error fails)]
    exact .breaksOff (frail ∘ kept) 3 rows

omit [Backend σ] [LawfulBackend σ] in
/-- The rows of a block's number name the reorg issue that a batch would have for the block. -/
theorem reorg?_of_rows {v : View} (first : Block) {rows : List BlockRow}
    (numbered : ∀ {n : UInt64} {row : BlockRow}, v.block? n = some row → row.number = n)
    (hrows : ∀ row, row ∈ rows ↔ row.number ∈ [first.numberWord] ∧ v.block? row.number = some row) :
    ((rows.find? fun row => row.number = first.numberWord && row.hash ≠ first.hashNormalized).map
        fun row => Issue.reorg first.numberWord row.hash first.hashNormalized) =
      v.reorg? first.numberWord first.hashNormalized := by
  have own (row : BlockRow) : row ∈ rows ↔ v.block? first.numberWord = some row := by
    rw [hrows, List.mem_singleton]
    constructor
    · rintro ⟨number, stored⟩
      rwa [number] at stored
    · intro stored
      have number := numbered stored
      exact ⟨number, by rwa [number]⟩
  cases changed : v.reorg? first.numberWord first.hashNormalized with
  | none =>
    rw [List.find?_eq_none.mpr, Option.map_none]
    intro row hrow
    simp [View.reorg?_eq_none.mp changed row ((own row).mp hrow)]
  | some issue =>
    obtain ⟨row, stored, other, rfl⟩ := View.reorg?_eq_some.mp changed
    have isLeading : (rows.find? fun row =>
        row.number = first.numberWord && row.hash ≠ first.hashNormalized) = some row := by
      cases leading : rows.find? fun row =>
          row.number = first.numberWord && row.hash ≠ first.hashNormalized with
      | none =>
        have absent := List.find?_eq_none.mp leading row ((own row).mpr stored)
        simp [numbered stored, other] at absent
      | some row' =>
        have stored' := (own row').mp (List.mem_of_find?_eq_some leading)
        rw [stored] at stored'
        exact stored'.symm
    rw [isLeading, Option.map_some]

/-- The check before a window finds the reorg issue that a batch would have for its first block. -/
theorem leadingReorg_on (first : Block) (s : σ) :
    (Batch.leadingReorg? first).on s =
      (.ok ((view s).reorg? first.numberWord first.hashNormalized), s) := by
  obtain ⟨rows, found, hrows⟩ := getBlocks_on s [first.numberWord]
  rw [Batch.leadingReorg?, Effect.on_bind_ok found, Effect.on_pure,
    reorg?_of_rows first block_number hrows]

/-- A window has one of six outcomes. -/
theorem outcome_on (plan : IndexPlan) (r : IndexRun) (last : UInt64) (results : List BlockResult)
    (s : σ) :
    Outcome plan r last results s ((r.absorb plan last results).on s).1
      ((r.absorb plan last results).on s).2 := by
  cases results with
  | nil => exact .givesUp rfl rfl id
  | cons result rest =>
    simp only [absorb]
    split
    case h_1 block hblock hfault =>
      have first : leadingBlock? (result :: rest) = some block := by
        rw [leadingBlock?, hfault, hblock]
        rfl
      split
      case isTrue checked =>
        rw [Bool.and_eq_true, decide_eq_true_iff, decide_eq_true_iff] at checked
        rw [Effect.on_bind_ok (Effect.on_checked_ok (leadingReorg_on block s))]
        cases changed : (view s).reorg? block.numberWord block.hashNormalized with
        | none => exact storeWindow_on first (.inr (.inr changed))
        | some issue => exact stepBack_on first checked.1 checked.2 changed
      case isFalse unchecked =>
        rw [Bool.and_eq_true, decide_eq_true_iff, decide_eq_true_iff, not_and_or] at unchecked
        rw [pure_bind]
        have zero (n : UInt64) (h : ¬ 0 < n) : n = 0 :=
          UInt64.le_antisymm (UInt64.not_lt.mp h) UInt64.zero_le
        exact storeWindow_on first (unchecked.imp (zero _) fun h => .inl (zero _ h))
    case h_2 missing =>
      refine giveUp_on result ?_
      rw [leadingBlock?]
      cases hfault : result.fault with
      | some fault => rfl
      | none =>
        cases hblock : result.block with
        | some block => exact (missing block hblock hfault).elim
        | none => rfl

/-- What a window can do to the next block and to the store. -/
inductive Absorbed (plan : IndexPlan) (r : IndexRun) (last : UInt64) (results : List BlockResult)
    (s : σ) : Except Halt IndexRun → σ → Prop
  /-- The run steps back.  Only an issue is written. -/
  | stepsBack {r' : IndexRun} {s' : σ} (issue : Issue) (order : r'.order = r.order)
      (back : r'.next ≤ r.next) (left : view s' = (view s).addIssues [issue]) :
      Absorbed plan r last results s (.ok r') s'
  /-- The window is stored, and the checkpoint moves to where the run goes on. -/
  | stores {r' : IndexRun} {stored s' : σ} (order : r'.order = r.order)
      (next : r'.next = Batch.nextAfter results last)
      (rows : view stored = (Batch.prepared plan.options results s).stage (view s) 3)
      (left : view s' = (view stored).setCheckpoint .index (raised stored .index r'.next)) :
      Absorbed plan r last results s (.ok r') s'
  /-- The run is over.  Only issues are written. -/
  | givesUp {halt : Halt} {s' : σ} (issues : List Issue)
      (left : view s' = (view s).addIssues issues) :
      Absorbed plan r last results s (.error halt) s'
  /-- The run is over, because a write failed or a number is out of range. -/
  | breaksOff {halt : Halt} {s' : σ} (k : Nat)
      (left : view s' = (Batch.prepared plan.options results s).stage (view s) k) :
      Absorbed plan r last results s (.error halt) s'

theorem Outcome.absorbed {result : Except Halt IndexRun} {s' : σ}
    (h : Outcome plan r last results s result s') : Absorbed plan r last results s result s' := by
  cases h with
  | stepsBack _ _ _ _ left =>
    exact .stepsBack _ rfl (Window.subSaturating_le r.next plan.rewindDepth) left
  | stores _ _ _ _ rows left => exact .stores rfl rfl rows left
  | givesUp _ left => exact .givesUp _ left
  | breaksOff _ k left => exact .breaksOff k left
  | outOfTime => exact .breaksOff 0 rfl
  | outOfNumbers _ _ _ _ left => exact .breaksOff 3 left

/-- In a sturdy store a window with a first block is stored, unless that block makes the run step
back, or a number is out of range. -/
theorem absorb_stores (plan : IndexPlan) (r : IndexRun) {last : UInt64} {block : Block}
    (hs : Sturdy s) (fits : Batch.TimesFit (view s) results) (countable : last ≠ Window.greatest)
    (first : leadingBlock? results = some block)
    (stays : plan.rewindDepth = 0 ∨ (view s).reorg? block.numberWord block.hashNormalized = none) :
    ∃ (inserted : Nat) (stored s' : σ),
      (r.absorb plan last results).on s = (.ok (r.wentOn last (Batch.nextAfter results last)
        (Batch.prepared plan.options results s) inserted), s') ∧
      view stored = (Batch.prepared plan.options results s).stage (view s) 3 ∧
      view s' = (view stored).setCheckpoint .index
        (raised stored .index (Batch.nextAfter results last)) ∧ Sturdy s' := by
  have outcome := outcome_on plan r last results s
  rcases done : (r.absorb plan last results).on s with ⟨result, s'⟩
  rw [done] at outcome
  cases outcome with
  | stepsBack again deep _ changed =>
    cases first.symm.trans again
    rcases stays with shallow | same
    · rw [shallow] at deep
      exact absurd deep UInt64.not_lt_zero
    · rw [same] at changed
      cases changed
  | @stores _ stored _ _ _ _ _ rows left sturdy =>
    exact ⟨_, stored, s', rfl, rows, left, sturdy hs⟩
  | givesUp missing => cases first.symm.trans missing
  | breaksOff frail => exact absurd hs frail
  | outOfTime _ _ unfit => exact absurd fits unfit
  | outOfNumbers _ _ _ behind => exact absurd behind countable

/-- In a sturdy store a window whose times do not fit breaks the run off before anything is written,
unless its first block makes the run step back. -/
theorem absorb_outOfTime (plan : IndexPlan) (r : IndexRun) (last : UInt64) {block : Block}
    (hs : Sturdy s) (unfit : ¬ Batch.TimesFit (view s) results)
    (first : leadingBlock? results = some block)
    (stays : plan.rewindDepth = 0 ∨ (view s).reorg? block.numberWord block.hashNormalized = none) :
    (r.absorb plan last results).on s = (.error .overflow, s) := by
  have outcome := outcome_on plan r last results s
  rcases done : (r.absorb plan last results).on s with ⟨result, s'⟩
  rw [done] at outcome
  cases outcome with
  | stepsBack again deep _ changed =>
    cases first.symm.trans again
    rcases stays with shallow | same
    · rw [shallow] at deep
      exact absurd deep UInt64.not_lt_zero
    · rw [same] at changed
      cases changed
  | stores _ _ fits => exact absurd fits unfit
  | givesUp missing => cases first.symm.trans missing
  | breaksOff frail => exact absurd hs frail
  | outOfTime => rfl
  | outOfNumbers _ _ fits => exact absurd fits unfit

/-- In a sturdy store the run steps back where its first block is stored with another hash. -/
theorem absorb_stepsBack (plan : IndexPlan) (r : IndexRun) (last : UInt64) {block : Block}
    {issue : Issue} (hs : Sturdy s) (first : leadingBlock? results = some block)
    (deep : 0 < plan.rewindDepth) (started : 0 < r.next)
    (changed : (view s).reorg? block.numberWord block.hashNormalized = some issue) :
    ∃ (inserted : Nat) (s' : σ),
      (r.absorb plan last results).on s = (.ok (r.steppedBack plan inserted), s') ∧
      view s' = (view s).addIssues [issue] ∧ Sturdy s' := by
  have outcome := outcome_on plan r last results s
  have moves {n : UInt64} (h : 0 < n) : n ≠ 0 := (UInt64.ne_of_lt h).symm
  have alone {other : Block} (again : leadingBlock? results = some other)
      (stays : plan.rewindDepth = 0 ∨ r.next = 0 ∨
        (view s).reorg? other.numberWord other.hashNormalized = none) : False := by
    cases first.symm.trans again
    rcases stays with shallow | zero | same
    · exact moves deep shallow
    · exact moves started zero
    · cases changed.symm.trans same
  rcases done : (r.absorb plan last results).on s with ⟨result, s'⟩
  rw [done] at outcome
  cases outcome with
  | stepsBack again _ _ found left sturdy =>
    cases first.symm.trans again
    cases changed.symm.trans found
    exact ⟨_, s', rfl, left, sturdy hs⟩
  | stores again stays => exact (alone again stays).elim
  | givesUp missing => cases first.symm.trans missing
  | breaksOff frail => exact absurd hs frail
  | outOfTime again stays => exact (alone again stays).elim
  | outOfNumbers again stays => exact (alone again stays).elim

end IndexRun

/-! ## Answers -/

/-- What may be answered to a run: heads and the results of fetches. -/
structure Answers where
  /-- An answer to the question for the head. -/
  head : HeadResult → Prop
  /-- The result of a fetch. -/
  fetch : BlockResult → Prop

namespace Answers

/-- An answer for the head is allowed.  The question may always fail. -/
def AllowsHead (a : Answers) : Except CrawlFault HeadResult → Prop
  | .ok head => a.head head
  | .error _ => True

/-- An answer for the window from `first` to `last` is allowed: it has one result per number, in
order.  The fetch of a window may always fail as a whole. -/
def AllowsWindow (a : Answers) (first last : UInt64) : Except CrawlFault (List BlockResult) → Prop
  | .ok results =>
    results.map BlockResult.number = Window.numbers first last ∧ ∀ r ∈ results, a.fetch r
  | .error _ => True

end Answers

/-- A run goes on with an allowed answer. -/
inductive IndexStep (plan : IndexPlan) (answers : Answers) :
    IndexPhase × σ → IndexPhase × σ → Prop
  /-- The head is answered. -/
  | head {run : IndexRun} {s : σ} (answer : Except CrawlFault HeadResult)
      (allowed : answers.AllowsHead answer) :
      IndexStep plan answers (.askHead run, s) ((IndexPhase.askHead run).onHead plan answer, s)
  /-- The window is answered by the slots of its array. -/
  | window {run : IndexRun} {last : UInt64} {s : σ}
      (answer : Except CrawlFault (List (Option BlockResult)))
      (allowed : answers.AllowsWindow run.next last
        (answer.map (IndexPhase.windowResults run.next))) :
      IndexStep plan answers (.askWindow run last, s)
        ((IndexPhase.askWindow run last).onSlots plan answer s)

/-- A run takes any number of steps. -/
abbrev IndexSteps (plan : IndexPlan) (answers : Answers) : IndexPhase × σ → IndexPhase × σ → Prop :=
  Relation.ReflTransGen (IndexStep plan answers)

/-- A run with the phases it went through, newest first. -/
inductive IndexPath (plan : IndexPlan) (answers : Answers) (origin : IndexPhase × σ) :
    List IndexPhase → IndexPhase × σ → Prop
  /-- The run is where it began. -/
  | start : IndexPath plan answers origin [] origin
  /-- One more step. -/
  | step {past : List IndexPhase} {before after : IndexPhase × σ}
      (path : IndexPath plan answers origin past before) (step : IndexStep plan answers before after) :
      IndexPath plan answers origin (before.1 :: past) after

/-- The first blocks of the windows among some phases. -/
def windowStarts (phases : List IndexPhase) : List UInt64 :=
  phases.filterMap fun
    | .askWindow run _ => some run.next
    | _ => none

omit [LawfulBackend σ] in
/-- A path is a run. -/
theorem IndexPath.steps {plan : IndexPlan} {answers : Answers} {origin state : IndexPhase × σ}
    {past : List IndexPhase} (path : IndexPath plan answers origin past state) :
    IndexSteps plan answers origin state := by
  induction path with
  | start => exact .refl
  | step _ step ih => exact ih.tail step

namespace IndexPhase

/-- The phase after a step that ended like this. -/
def ofResult : Except Halt IndexRun → IndexPhase
  | .ok run => .askHead run
  | .error (.fault fault) => .ended (.error fault)
  | .error .overflow => .broken

omit [Backend σ] [LawfulBackend σ] in
theorem ofStep_eq (step : Checked σ IndexRun) (s : σ) :
    ofStep step s = (ofResult (step.on s).1, (step.on s).2) := by
  simp only [ofStep, bind, StateT.bind, Effect.on, ExceptT.run]
  obtain ⟨r, s'⟩ := step s
  rcases r with (fault | _) | run <;> rfl

/-- The first block of a run: the checkpoint, where the run resumes and there is one. -/
def firstBlock (order : IndexOrder) (v : View) : UInt64 :=
  if order.useCheckpoint then (v.checkpoint? .index).getD order.first else order.first

/-- A run starts by asking for the head.  Nothing is written. -/
theorem start_eq (order : IndexOrder) (s : σ) :
    start order s =
      (.askHead ⟨order, firstBlock order (view s),
        { nextBlock := firstBlock order (view s) }, none⟩, s) := by
  rw [start, ofStep_eq, Effect.on_checked, IndexRun.start, firstBlock]
  cases order.useCheckpoint with
  | true =>
    rw [if_pos rfl, Effect.on_bind_ok (getCheckpoint_on s .index)]
    rfl
  | false => rfl

omit [Backend σ] [LawfulBackend σ] in
/-- A run that gets the head asks for a window, as long as its next block is not behind the last
one. -/
theorem onHead_ok (plan : IndexPlan) (run : IndexRun) {head : HeadResult} {last : UInt64}
    (h : IndexRun.lastBlock run.order head = .ok last) :
    (askHead run).onHead plan (.ok head) =
      if last < run.next then ended (.ok run.report)
      else askWindow run (run.windowEnd plan last) := by
  simp only [onHead, Except.bind, h]

omit [Backend σ] [LawfulBackend σ] in
theorem onHead_of_le (plan : IndexPlan) (run : IndexRun) {head : HeadResult} {last : UInt64}
    (h : IndexRun.lastBlock run.order head = .ok last) (more : run.next ≤ last) :
    (askHead run).onHead plan (.ok head) = askWindow run (run.windowEnd plan last) := by
  rw [onHead_ok plan run h, if_neg (UInt64.not_lt.mpr more)]

/-- A run that gets the results of its window. -/
theorem onWindow_ok (plan : IndexPlan) (run : IndexRun) (last : UInt64)
    (results : List BlockResult) (s : σ) :
    ∃ result s', (askWindow run last).onWindow plan (.ok results) s = (ofResult result, s') ∧
      run.Outcome plan last results s result s' :=
  ⟨_, _, ofStep_eq (run.absorb plan last results) s, IndexRun.outcome_on plan run last results s⟩

omit [LawfulBackend σ] in
/-- The slots of a window that can be counted are taken as its results. -/
theorem onSlots_ok (plan : IndexPlan) (run : IndexRun) (last : UInt64)
    {slots : List (Option BlockResult)} (s : σ) (countable : Window.CanCount run.next slots.length) :
    (askWindow run last).onSlots plan (.ok slots) s =
      (askWindow run last).onWindow plan (.ok (windowResults run.next slots)) s := by
  rw [onSlots, if_pos countable]

omit [LawfulBackend σ] in
/-- Slots that cannot be counted break the run off.  Nothing is written. -/
theorem onSlots_broken (plan : IndexPlan) (run : IndexRun) (last : UInt64)
    {slots : List (Option BlockResult)} (s : σ)
    (uncountable : ¬ Window.CanCount run.next slots.length) :
    (askWindow run last).onSlots plan (.ok slots) s = (.broken, s) := by
  rw [onSlots, if_neg uncountable]
  rfl

/-- Where each slot has a result, these are the results. -/
@[simp] theorem windowResults_some (first : UInt64) (results : List BlockResult) :
    windowResults first (results.map some) = results := by
  rw [windowResults, List.zipIdx_map, List.map_map]
  exact List.zipIdx_map_fst 0 results

@[simp] theorem length_windowResults (first : UInt64) (slots : List (Option BlockResult)) :
    (windowResults first slots).length = slots.length := by
  rw [windowResults, List.length_map, List.length_zipIdx]

end IndexPhase

namespace IndexStep

variable {plan : IndexPlan} {answers : Answers} {run : IndexRun} {last : UInt64} {s : σ}

omit [LawfulBackend σ] in
/-- A window is taken as its results, or the run breaks off. -/
@[elab_as_elim]
theorem by_results {motive : ∀ before after : IndexPhase × σ, IndexStep plan answers before after → Prop}
    (head : ∀ run s answer allowed, motive (.askHead run, s) _ (.head answer allowed))
    (window : ∀ run last s answer, answers.AllowsWindow run.next last answer →
      ∀ step, motive (.askWindow run last, s) ((IndexPhase.askWindow run last).onWindow plan answer s)
        step)
    (uncountable : ∀ run last s step, motive (.askWindow run last, s) (.broken, s) step)
    {before after : IndexPhase × σ} (step : IndexStep plan answers before after) :
    motive before after step := by
  cases step with
  | head answer allowed => exact head _ _ answer allowed
  | @window run last s answer allowed =>
    have step : IndexStep plan answers (.askWindow run last, s)
        ((IndexPhase.askWindow run last).onSlots plan answer s) := .window answer allowed
    show motive _ _ step
    revert step
    cases answer with
    | error fault => exact window run last s (.error fault) allowed
    | ok slots =>
      by_cases countable : Window.CanCount run.next slots.length
      · rw [IndexPhase.onSlots_ok plan run last s countable]
        exact window run last s _ allowed
      · rw [IndexPhase.onSlots_broken plan run last s countable]
        exact uncountable run last s

omit [LawfulBackend σ] in
/-- The results of a window are taken where there is a number behind it. -/
theorem of_results {results : List BlockResult} (countable : last ≠ Window.greatest)
    (allowed : answers.AllowsWindow run.next last (.ok results)) :
    IndexStep plan answers (.askWindow run last, s)
      ((IndexPhase.askWindow run last).onWindow plan (.ok results) s) := by
  have counted : Window.CanCount run.next (results.map some).length := by
    have asked := congrArg List.length allowed.1
    rw [List.length_map] at asked ⊢
    exact asked ▸ Window.canCount_numbers_iff.mpr (.inl countable)
  have step : IndexStep plan answers (.askWindow run last, s)
      ((IndexPhase.askWindow run last).onSlots plan (.ok (results.map some)) s) :=
    .window _ (by simpa only [Except.map, IndexPhase.windowResults_some] using allowed)
  rwa [IndexPhase.onSlots_ok plan run last s counted, IndexPhase.windowResults_some] at step

end IndexStep

/-! ## A window of one block -/

namespace OneBlock

/-- The block. -/
def block : Block := { number := "0x1", hash := "0xab" }

/-- Its result. -/
def result : BlockResult := ⟨1, some block, none, none, 0⟩

/-- The order. -/
def order : IndexOrder := ⟨1, some 1, 1, true⟩

/-- The plan. -/
def plan : IndexPlan := ⟨⟨false, true⟩, 0, 0⟩

/-- The run before its window. -/
def first : IndexRun := ⟨order, 1, { nextBlock := 1 }, none⟩

omit [Backend σ] [LawfulBackend σ] in
/-- The window is the block alone. -/
theorem asks_window (plan : IndexPlan) :
    (IndexPhase.askHead first).onHead plan (.ok ⟨some 1, none⟩) = .askWindow first 1 := by
  have sole : first.windowEnd plan 1 = 1 :=
    have bounds := first.windowEnd_bounds plan (UInt64.le_refl 1)
    UInt64.le_antisymm bounds.2 bounds.1
  have last : IndexRun.lastBlock order ⟨some 1, none⟩ = .ok 1 := rfl
  rw [IndexPhase.onHead_of_le plan first last (UInt64.le_refl 1), sole]

end OneBlock

/-! ## A run over a block that was replaced -/

/-- What a row says apart from its block: its hash and its time. -/
def View.brief? (v : View) (n : UInt64) : Option (String × Int64) :=
  (v.block? n).map fun row => (row.hash, row.timestamp)

section Brief

variable {v w : View} {results : List BlockResult}

/-- A hash that changes is seen from this much. -/
theorem View.reorg?_eq_brief (n : UInt64) (hash : String) :
    v.reorg? n hash = (v.brief? n).bind fun found =>
      if found.1 ≠ hash then some (Issue.reorg n found.1 hash) else none := by
  rw [reorg?, brief?, Option.bind_map]
  rfl

/-- Whether times fit is seen from it, too. -/
theorem Batch.timesFit_congr (same : ∀ b ∈ goodBlocks results,
    v.brief? (b.numberWord - 1) = w.brief? (b.numberWord - 1)) :
    TimesFit v results ↔ TimesFit w results := by
  have times (u : View) (n : UInt64) :
      (u.block? n).map BlockRow.timestamp = (u.brief? n).map Prod.snd := by
    rw [View.brief?, Option.map_map]
    rfl
  refine forall₂_congr fun b hb => ?_
  rw [timeBefore?, timeBefore?, times, times, same b hb]

/-- After the last stage a number has the hash and the time of its good block, or those it had. -/
theorem Batch.brief?_stage_last {holder? : String → Option UInt64} {options : ClassifyOptions}
    (hd : (results.map BlockResult.number).Nodup) (n : UInt64) :
    ((classified v holder? options results).stage v 3).brief? n =
      ((lastWith? Block.numberWord (goodBlocks results) n).map fun b =>
        (b.hashNormalized, b.timestampSigned)).or (v.brief? n) := by
  have rows : ((contextOf v holder? options results).complete ∘ rowOf options) = fun b =>
      (contextOf v holder? options results).complete (rowOf options b) := rfl
  rw [View.brief?, block?_stage_last hd, completedRows, lastWith?_map_rows, Option.map_or,
    Option.map_map]
  simp only [Context.complete_number, rowOf_number, View.brief?]
  congr 2
  funext b
  simp only [Function.comp_apply, Context.complete_hash, rowOf_hash]
  exact congrArg (b.hashNormalized, ·) (rowOf_timestamp options b)

end Brief

namespace Overtaken

/-- The chain.  Its last two blocks share a transaction. -/
def chain (n : UInt64) : Block :=
  if n = 1 then { number := "0x1", hash := "0xa1", timestamp := "0x64" }
  else if n = 2 then
    { number := "0x2", hash := "0xa2", timestamp := "0x70",
      transactions := [{ hash := "0xF0" }, { hash := "f1" }] }
  else
    { number := "0x3", hash := "0xa3", timestamp := "0x7c", transactions := [{ hash := "0xf0" }] }

/-- A block that another one has replaced in the chain. -/
def stale : Block :=
  { number := "0x2", hash := "0xbb", timestamp := "0x6e", transactions := [{ hash := "0xf1" }] }

/-- A block of the chain is verified under its number. -/
theorem verified {n : UInt64} (hn : n ∈ [1, 2, 3]) : (chain n).verify n = .ok () := by
  simp only [List.mem_cons, List.not_mem_nil, or_false] at hn
  rcases hn with rfl | rfl | rfl
  · decide
  · decide
  · decide

/-- A fetched block of the chain. -/
def result (n : UInt64) : BlockResult := ⟨n, some (chain n), none, none, 0⟩

/-- The order: the chain, in windows of one block. -/
def order : IndexOrder := ⟨1, some 3, 1, true⟩

/-- A run steps back by one block. -/
def plan : IndexPlan := ⟨⟨false, true⟩, 1, 0⟩

/-- A view with these rows. -/
def viewOf (rows : List BlockRow) : View :=
  { View.empty with block? := lastWith? BlockRow.number rows }

/-- What is stored before the run. -/
def before : View := viewOf [.ofBlock stale]

/-- The store before the run: the replaced block was written to it. -/
def store : MemoryStore := ((Batch.writeBlocks plan.options [stale]).on default).2

/-- What is stored with the first block. -/
def between : View := viewOf [.ofBlock (chain 1), .ofBlock stale]

/-- What is stored once the replaced block is, too. -/
def after : View := viewOf [.ofBlock (chain 1), .ofBlock (chain 2)]

/-- The numbers of the range, and the one right before it. -/
def around : List UInt64 := [0, 1, 2, 3]

/-- A store looks like a view in the range and right before it, and no write to it fails. -/
structure Looks (s : MemoryStore) (v : View) : Prop where
  sturdy : Sturdy s
  -- an equation of lists, which can be decided without going through all words
  brief : around.map (view s).brief? = around.map v.brief?

theorem Looks.at {s : MemoryStore} {v : View} (h : Looks s v) {n : UInt64} (hn : n ∈ around) :
    (view s).brief? n = v.brief? n := List.map_inj_left.mp h.brief n hn

theorem store_looks : Looks store before ∧ (view store).checkpoint? .index = none := by
  obtain ⟨report, s, written, sturdy⟩ :=
    Batch.writeBlocks_of_sturdy plan.options (show Sturdy (default : MemoryStore) from rfl)
      (show Batch.GivenFits (view (default : MemoryStore)) [stale] by decide +kernel)
  have isStore : s = store := (congrArg Prod.snd written).symm
  obtain ⟨_, content, _⟩ := Batch.writeBlocks_ok written
  rw [isStore] at sturdy content
  have becomes : around.map (fun n =>
      ((lastWith? Block.numberWord (Batch.goodBlocks (Batch.givenResults [stale])) n).map
        fun b => (b.hashNormalized, b.timestampSigned)).or ((view (default : MemoryStore)).brief? n)) =
      around.map before.brief? := by decide +kernel
  refine ⟨⟨sturdy, (List.map_congr_left fun n _ => ?_).trans becomes⟩, ?_⟩
  · rw [content, Batch.givenBatch, Batch.prepared, Batch.brief?_stage_last (by decide +kernel)]
  · rw [content, Batch.givenBatch, Batch.checkpoint?_stage]
    rfl

section Windows

variable {s : MemoryStore} {answers : Answers} {seen : View}

theorem asked (numbers : List UInt64) : (numbers.map result).map BlockResult.number = numbers := by
  rw [List.map_map]
  exact List.map_id numbers

/-- A window of the run is stored. -/
theorem stores (h : Looks s seen) (run : IndexRun) (stop : UInt64) (numbers : List UInt64) (left : View)
    (window : numbers = Window.numbers run.next stop) (countable : stop ≠ Window.greatest)
    (told : ∀ r ∈ numbers.map result, answers.fetch r)
    (good : ∀ b ∈ Batch.goodBlocks (numbers.map result), b.numberWord ∈ [1, 2, 3]) {block : Block}
    (leads : IndexRun.leadingBlock? (numbers.map result) = some block)
    (first : block.numberWord ∈ around)
    (same : seen.reorg? block.numberWord block.hashNormalized = none)
    (fits : Batch.TimesFit seen (numbers.map result))
    (becomes : around.map (fun n =>
      ((lastWith? Block.numberWord (Batch.goodBlocks (numbers.map result)) n).map
        fun b => (b.hashNormalized, b.timestampSigned)).or (seen.brief? n)) = around.map left.brief?) :
    ∃ (run' : IndexRun) (s' : MemoryStore), Looks s' left ∧
      IndexStep plan answers (.askWindow run stop, s) (.askHead run', s') ∧
      run'.order = run.order ∧ run'.next = Batch.nextAfter (numbers.map result) stop ∧
      run'.reorged = run.reorged.filter (stop < ·) ∧
      run'.report.windows = run.report.windows + 1 ∧ run'.report.nextBlock = run'.next ∧
      (view s').checkpoint? .index = some (match (view s).checkpoint? .index with
        | some old => max old run'.next
        | none => run'.next) := by
  have hd : ((numbers.map result).map BlockResult.number).Nodup := by
    rw [asked, window]
    exact Window.numbers_nodup run.next stop
  have fits : Batch.TimesFit (view s) (numbers.map result) := by
    refine (Batch.timesFit_congr fun b hb => h.at ?_).mpr fits
    have inside := good b hb
    simp only [around, List.mem_cons, List.not_mem_nil, or_false] at inside ⊢
    rcases inside with one | two | three
    · exact .inl (by rw [one]; rfl)
    · exact .inr (.inl (by rw [two]; rfl))
    · exact .inr (.inr (.inl (by rw [three]; rfl)))
  rw [View.reorg?_eq_brief, ← h.at first, ← View.reorg?_eq_brief] at same
  obtain ⟨inserted, stored, s', absorbed, rows, content, sturdy⟩ :=
    IndexRun.absorb_stores plan run h.sturdy fits countable leads (.inr same)
  have step : IndexStep plan answers (.askWindow run stop, s) _ :=
    .of_results countable ⟨(asked numbers).trans window, told⟩
  rw [IndexPhase.onWindow, IndexPhase.ofStep_eq, absorbed] at step
  refine ⟨_, s', ⟨sturdy, List.map_congr_left fun n hn => ?_⟩, step, rfl, rfl, rfl, rfl, rfl, ?_⟩
  · have brief : (view s').brief? n = (view stored).brief? n := by rw [content]; rfl
    rw [brief, rows, Batch.prepared, Batch.brief?_stage_last hd, h.at hn]
    exact List.map_inj_left.mp becomes n hn
  · have kept : (view stored).checkpoint? .index = (view s).checkpoint? .index := by
      rw [rows, Batch.checkpoint?_stage]
    have saved : (view s').checkpoint? .index =
      some (raised stored .index (Batch.nextAfter (numbers.map result) stop)) := by
      rw [content]
      rfl
    rw [saved, ← kept]
    rfl

/-- A window of the run makes it step back. -/
theorem stepsBack (h : Looks s seen) (run : IndexRun) (stop : UInt64) (numbers : List UInt64)
    (window : numbers = Window.numbers run.next stop) (countable : stop ≠ Window.greatest)
    (told : ∀ r ∈ numbers.map result, answers.fetch r) {block : Block}
    (leads : IndexRun.leadingBlock? (numbers.map result) = some block)
    (first : block.numberWord ∈ around) (started : 0 < run.next) {issue : Issue}
    (changed : seen.reorg? block.numberWord block.hashNormalized = some issue) :
    ∃ (run' : IndexRun) (s' : MemoryStore), Looks s' seen ∧
      IndexStep plan answers (.askWindow run stop, s) (.askHead run', s') ∧
      run'.order = run.order ∧ run'.next = Window.subSaturating run.next 1 ∧
      run'.reorged = some (max (run.reorged.getD run.next) run.next) ∧
      run'.report.windows = run.report.windows ∧
      (view s').checkpoint? .index = (view s).checkpoint? .index := by
  rw [View.reorg?_eq_brief, ← h.at first, ← View.reorg?_eq_brief] at changed
  obtain ⟨inserted, s', absorbed, content, sturdy⟩ := IndexRun.absorb_stepsBack plan run stop h.sturdy
    leads (show 0 < plan.rewindDepth by decide) started changed
  have step : IndexStep plan answers (.askWindow run stop, s) _ :=
    .of_results countable ⟨(asked numbers).trans window, told⟩
  rw [IndexPhase.onWindow, IndexPhase.ofStep_eq, absorbed] at step
  refine ⟨_, s', ⟨sturdy, ?_⟩, step, rfl, rfl, rfl, rfl, ?_⟩
  · rw [content]
    exact h.brief
  · rw [content]
    rfl

/-- The run asks for a window as long as it is not over. -/
theorem asks (head : answers.head ⟨some 3, none⟩) {run : IndexRun} {next stop : UInt64}
    {reorged : Option UInt64} (ordered : run.order = order) (goesOn : run.next = next)
    (pending : run.reorged = reorged) (more : next ≤ 3)
    (reaches : (⟨order, next, {}, reorged⟩ : IndexRun).windowEnd plan 3 = stop) :
    IndexStep plan answers (.askHead run, s) (.askWindow run stop, s) := by
  have step : IndexStep plan answers (.askHead run, s)
      ((IndexPhase.askHead run).onHead plan (.ok ⟨some 3, none⟩), s) := .head _ head
  have last : IndexRun.lastBlock run.order ⟨some 3, none⟩ = .ok 3 := by rw [ordered]; rfl
  rw [IndexRun.windowEnd, ← goesOn, ← pending, ← ordered] at reaches
  rw [← goesOn] at more
  rwa [IndexPhase.onHead_of_le plan run last more, IndexRun.windowEnd, reaches] at step

end Windows

/-- The run before its first window. -/
def first : IndexRun := ⟨order, 1, { nextBlock := 1 }, none⟩

/-- The first window is stored.  The second one makes the run step back, so the next one has two
blocks.  Then the last block is stored. -/
theorem path {answers : Answers} (head : answers.head ⟨some 3, none⟩)
    (fetch : ∀ n ∈ [1, 2, 3], answers.fetch (result n)) :
    ∃ (past : List IndexPhase) (report : BatchReport) (s' : MemoryStore),
      IndexPath plan answers (IndexPhase.start order store) past (.ended (.ok report), s') ∧
      windowStarts past = [3, 1, 2, 1] ∧ report.windows = 3 ∧ report.nextBlock = 4 ∧
      (view s').checkpoint? .index = some 4 := by
  have fetched {numbers : List UInt64} (inside : numbers.Sublist [1, 2, 3]) :
      ∀ r ∈ numbers.map result, answers.fetch r := by
    intro r hr
    obtain ⟨n, hn, rfl⟩ := List.mem_map.mp hr
    exact fetch n (inside.subset hn)
  obtain ⟨looks, fresh⟩ := store_looks
  have started : IndexPhase.start order store = (.askHead first, store) := by
    rw [IndexPhase.start_eq, IndexPhase.firstBlock, fresh]
    rfl
  have asks₁ : IndexStep plan answers (.askHead first, store) (.askWindow first 1, store) :=
    asks head rfl rfl rfl (by decide) (by decide)
  obtain ⟨r₁, s₁, h₁, stores₁, order₁, next₁, reorged₁, windows₁, _, saved₁⟩ :=
    stores looks first 1 [1] between (by decide) (by decide) (fetched (by decide)) (by decide)
      rfl (by decide) (by decide +kernel) (by decide +kernel) (by decide +kernel)
  have next₁ : r₁.next = 2 := next₁.trans (by decide)
  have asks₂ : IndexStep plan answers (.askHead r₁, s₁) (.askWindow r₁ 2, s₁) :=
    asks head order₁ next₁ reorged₁ (by decide) (by decide)
  obtain ⟨r₂, s₂, h₂, back₂, order₂, next₂, reorged₂, windows₂, saved₂⟩ :=
    stepsBack h₁ r₁ 2 [2] (by rw [next₁]; decide) (by decide) (fetched (by decide)) rfl
      (by decide) (by rw [next₁]; decide)
      (View.reorg?_eq_some.mpr ⟨.ofBlock stale, rfl, by decide +kernel, rfl⟩)
  rw [next₁, reorged₁] at reorged₂
  rw [next₁] at next₂
  have asks₃ : IndexStep plan answers (.askHead r₂, s₂) (.askWindow r₂ 2, s₂) :=
    asks head (order₂.trans order₁) next₂ reorged₂ (by decide) (by decide)
  obtain ⟨r₃, s₃, h₃, stores₃, order₃, next₃, reorged₃, windows₃, _, saved₃⟩ :=
    stores h₂ r₂ 2 [1, 2] after (by rw [next₂]; decide) (by decide) (fetched (by decide))
      (by decide) rfl (by decide) (by decide +kernel) (by decide +kernel) (by decide +kernel)
  have next₃ : r₃.next = 3 := next₃.trans (by decide)
  rw [reorged₂] at reorged₃
  have asks₄ : IndexStep plan answers (.askHead r₃, s₃) (.askWindow r₃ 3, s₃) :=
    asks head (order₃.trans (order₂.trans order₁)) next₃ reorged₃ (by decide) (by decide)
  obtain ⟨r₄, s₄, _, stores₄, order₄, next₄, _, windows₄, behind₄, saved₄⟩ :=
    stores h₃ r₃ 3 [3] (viewOf ([1, 2, 3].map fun n => .ofBlock (chain n)))
      (by rw [next₃]; decide) (by decide) (fetched (by decide)) (by decide) rfl (by decide)
      (by decide +kernel) (by decide +kernel) (by decide +kernel)
  have next₄ : r₄.next = 4 := next₄.trans (by decide)
  have last : IndexRun.lastBlock r₄.order ⟨some 3, none⟩ = .ok 3 := by
    rw [order₄, order₃, order₂, order₁]
    rfl
  have ends : IndexStep plan answers (.askHead r₄, s₄) (.ended (.ok r₄.report), s₄) := by
    have step : IndexStep plan answers (.askHead r₄, s₄)
      ((IndexPhase.askHead r₄).onHead plan (.ok ⟨some 3, none⟩), s₄) := .head _ head
    rwa [IndexPhase.onHead_ok plan r₄ last, if_pos (by rw [next₄]; decide)] at step
  rw [fresh, next₁] at saved₁
  rw [saved₂, saved₁, next₃] at saved₃
  rw [saved₃, next₄] at saved₄
  rw [started]
  refine ⟨_, r₄.report, s₄, ((((((((IndexPath.start.step asks₁).step stores₁).step asks₂).step
    back₂).step asks₃).step stores₃).step asks₄).step stores₄).step ends, ?_, ?_,
    behind₄.trans next₄, saved₄⟩
  · simp only [windowStarts, List.filterMap_cons, List.filterMap_nil, next₁, next₂, next₃]
    decide
  · rw [windows₄, windows₃, windows₂, windows₁]
    rfl

end Overtaken

end ChainIndex
