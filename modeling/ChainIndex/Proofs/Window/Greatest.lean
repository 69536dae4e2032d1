import ChainIndex.Crawler.Client
import ChainIndex.Proofs.Batch.Given
import ChainIndex.Proofs.Download.Steps
import ChainIndex.Proofs.Index.Steps
import ChainIndex.Proofs.Window.Walk

/-!
# Steps behind a number

Four programs step behind a number: downloads and benchmarks behind their windows, index runs behind
a window that was stored, and a write of blocks behind the greatest of their numbers.  The ends of
windows stop at the greatest word, but there is no word for these steps to go to, and the programs
break off.

So each of them does what it should just where the number is another word
(`steps_behind_go_up_iff`).  Downloads and benchmarks of a range that ends at the greatest word get
to its last window and break off there.  Of an index window that ends there, and of blocks among
which the greatest number is, nothing is stored.
-/

namespace ChainIndex

open Window LawfulBackend

/-! ## Downloads -/

/-- A download asks for a window, or it has stopped and asks for none.  One that failed or broke off
does neither. -/
def DownloadPhase.Asks : DownloadPhase → Option (UInt64 × UInt64) → Prop
  | .askWindow run last, asks | .askWritten run last _, asks => asks = some (run.next, last)
  | .ended (.ok _), asks => asks = none
  | .ended (.error _), _ | .broken, _ => False

section Downloads

variable {σ : Type} [Backend σ] {elsewhere : σ → σ → Prop} {fetches : Fetches}
  {kind : DownloadKind} {order : DownloadOrder}

/-- The windows that a download may have written so far, and the one that it may ask for then. -/
def DownloadOrder.Visits (elsewhere : σ → σ → Prop) (fetches : Fetches) (kind : DownloadKind)
    (order : DownloadOrder) (s : σ) (visited : List (UInt64 × UInt64))
    (asks : Option (UInt64 × UInt64)) : Prop :=
  ∃ state, DownloadSteps elsewhere fetches (.begin kind order s) state ∧
    state.log.windows = visited ∧ state.phase.Asks asks

/-- A download may break off. -/
def DownloadOrder.BreaksOff (elsewhere : σ → σ → Prop) (fetches : Fetches) (kind : DownloadKind)
    (order : DownloadOrder) (s : σ) : Prop :=
  ∃ state, DownloadSteps elsewhere fetches (.begin kind order s) state ∧ state.phase = .broken

/-- The windows of a download are those of a walk up to its next window. -/
def OnWalk (order : DownloadOrder) (first : UInt64) (run : DownloadRun) (log : DownloadLog)
    (_ : σ) : Prop :=
  run.order = order ∧ Walked order.batchSize order.last first log.windows run.next

theorem stable_onWalk (first : UInt64) : Stable elsewhere fetches (OnWalk (σ := σ) order first) where
  other inv _ := inv
  written := fun ⟨ordered, walked⟩ more done => by
    obtain ⟨countable, rfl, -⟩ := DownloadRun.absorb_ok done
    rw [DownloadRun.windowEnd, ordered] at countable
    rw [ordered] at more
    refine ⟨ordered, ?_⟩
    rw [DownloadRun.windowEnd, ordered]
    exact walked.step more countable

omit [Backend σ] in
/-- A download on a walk asks for the next window of the walk, or has stopped behind the range. -/
theorem OnWalk.asks {first : UInt64} {state : DownloadState σ} {asks : Option (UInt64 × UInt64)}
    (h : Along fetches (OnWalk order first) state) (asked : state.phase.Asks asks) :
    ∃ next, Walked order.batchSize order.last first state.log.windows next ∧
      asks = Window.asked order.batchSize order.last next := by
  cases h with
  | asks inv more | hands inv more =>
    obtain ⟨rfl, walked⟩ := inv
    exact ⟨_, walked, asked.trans (asked_eq_some more).symm⟩
  | through inv past =>
    obtain ⟨rfl, walked⟩ := inv
    exact ⟨_, walked, asked.trans (asked_eq_none past).symm⟩
  | failed | broken => exact asked.elim

omit [Backend σ] in
/-- A download on a walk breaks off where its range ends at the greatest word. -/
theorem OnWalk.greatest_of_broken {first : UInt64} {state : DownloadState σ}
    (h : Along fetches (OnWalk order first) state) (broken : state.phase = .broken) :
    order.last = greatest := by
  cases h with
  | broken inv more uncountable =>
    obtain ⟨rfl, -⟩ := inv
    by_contra below
    exact last_ne_greatest _ below more uncountable
  | _ => cases broken

/-- Between two windows a download asks for the one at its next number. -/
theorem DownloadPhase.asks_ofRun (run : DownloadRun) :
    (ofRun run).Asks (asked run.order.batchSize run.order.last run.next) := by
  rw [ofRun, asked]
  split
  case isTrue => rfl
  case isFalse => rfl

variable [LawfulBackend σ]

/-- In a sturdy store a download gets behind a window where there is a number behind it. -/
theorem DownloadRun.absorb_of_sturdy (r : DownloadRun) {last : UInt64} (countable : last ≠ greatest)
    (window : Harvest) (written : Nat) {s : σ} (hs : Sturdy s) :
    ∃ s', (r.absorb last window written).on s = (.ok (r.absorbed last window written), s') ∧
      Sturdy s' := by
  by_cases kept : keepsCheckpoint r.kind r.order
  · obtain ⟨s', saved, -, sturdy⟩ :=
      (saveCheckpoint_on s .trace (r.absorbed last window written).reach).of_sturdy hs
    refine ⟨s', ?_, sturdy⟩
    rw [absorb_of_kept countable kept, saved]
  · exact ⟨s, absorb_of_free countable kept, hs⟩

/-- In a sturdy store a download can follow a walk, whatever its fetches bring. -/
theorem exists_steps_of_walked (elsewhere : σ → σ → Prop) (fetches : Fetches) {s : σ}
    (hs : Sturdy s) {ws : List (UInt64 × UInt64)} {next : UInt64} (walked : Walked order.batchSize
      order.last (DownloadPhase.startBlock kind order (view s)) ws next) :
    ∃ run s' log, DownloadSteps elsewhere fetches (.begin kind order s) ⟨.ofRun run, s', log⟩ ∧
      Sturdy s' ∧ OnWalk order (DownloadPhase.startBlock kind order (view s)) run log s' ∧
      log.windows = ws ∧ run.next = next := by
  induction walked with
  | start =>
    rw [DownloadState.begin_eq]
    exact ⟨_, s, {}, .refl, hs, ⟨rfl, .start⟩, rfl, rfl⟩
  | step _ more countable ih =>
    obtain ⟨run, s', log, steps, sturdy, ⟨rfl, walked⟩, rfl, rfl⟩ := ih
    rw [DownloadPhase.ofRun, if_neg (UInt64.not_lt.mpr more)] at steps
    have countable : run.windowEnd ≠ greatest := countable
    have fetched := steps.tail .window
    rw [fetches.onTexts_of_ne countable] at fetched
    -- what the writer answers does not change where a download goes, so it may answer zero
    obtain ⟨s'', absorbed, sturdy'⟩ := run.absorb_of_sturdy countable
      (fetches.harvest run.kind run.next run.windowEnd) 0 sturdy
    have written := fetched.tail (.written 0)
    rw [DownloadPhase.onWritten_ok absorbed] at written
    exact ⟨_, s'', _, written, sturdy', ⟨rfl, walked.step more countable⟩, rfl, rfl⟩

/-- In a sturdy store the windows of a download are those of a walk. -/
theorem download_walks {s : σ} (hs : Sturdy s) :
    Walks order.batchSize order.last (DownloadPhase.startBlock kind order (view s))
      (order.Visits elsewhere fetches kind s) := by
  refine fun visited asks => ⟨?_, ?_⟩
  · rintro ⟨state, steps, rfl, asked⟩
    rw [DownloadState.begin_eq] at steps
    exact OnWalk.asks (.steps (.ofRun ⟨rfl, .start⟩) (stable_onWalk _) steps) asked
  · rintro ⟨next, walked, rfl⟩
    obtain ⟨run, s', log, steps, -, ⟨rfl, -⟩, rfl, rfl⟩ :=
      exists_steps_of_walked elsewhere fetches hs walked
    exact ⟨_, steps, rfl, DownloadPhase.asks_ofRun run⟩

/-- In a sturdy store a download breaks off just where its range ends at the greatest word. -/
theorem download_breaksOff_iff {s : σ} (hs : Sturdy s) :
    order.BreaksOff elsewhere fetches kind s ↔ order.last = greatest := by
  constructor
  · rintro ⟨state, steps, broken⟩
    rw [DownloadState.begin_eq] at steps
    exact OnWalk.greatest_of_broken (.steps (.ofRun ⟨rfl, .start⟩) (stable_onWalk _) steps) broken
  · intro top
    obtain ⟨ws, next, walked, uncountable⟩ := exists_walked_of_greatest order.batchSize
      (DownloadPhase.startBlock kind order (view s))
    rw [← top] at walked
    obtain ⟨run, s', log, steps, -, ⟨rfl, -⟩, rfl, rfl⟩ :=
      exists_steps_of_walked elsewhere fetches hs walked
    have more : run.next ≤ run.order.last := top ▸ le_greatest run.next
    have last : run.windowEnd = greatest := by
      rw [DownloadRun.windowEnd, top]
      exact uncountable
    rw [DownloadPhase.ofRun, if_neg (UInt64.not_lt.mpr more)] at steps
    have broken := steps.tail .window
    rw [fetches.onTexts_of_greatest more last] at broken
    exact ⟨_, broken, rfl⟩

end Downloads

/-! ## Benchmarks -/

namespace Benchmark

/-- The windows that a benchmark has visited on its way to another state, whatever they brought. -/
inductive Visited (b : Benchmark) : List (UInt64 × UInt64) → Benchmark → Prop
  | start : Visited b [] b
  | window {ws : List (UInt64 × UInt64)} {b' after : Benchmark} (visited : Visited b ws b')
      (more : b'.isOver = false) (items : List (Option UInt32))
      (goesOn : b'.absorb? items = some after) :
      Visited b (ws ++ [(b'.next, b'.windowEnd)]) after

/-- The window that a benchmark asks for, unless it is over. -/
def asks (b : Benchmark) : Option (UInt64 × UInt64) :=
  if b.isOver then none else some (b.next, b.windowEnd)

/-- The windows that a benchmark may have visited so far, and the one that it asks for then. -/
def Visits (b : Benchmark) (visited : List (UInt64 × UInt64)) (asks : Option (UInt64 × UInt64)) :
    Prop :=
  ∃ b', b.Visited visited b' ∧ asks = b'.asks

/-- A benchmark may break off. -/
def BreaksOff (b : Benchmark) : Prop :=
  ∃ ws b' items, b.Visited ws b' ∧ b'.isOver = false ∧ b'.absorb? items = none

variable {b b' after : Benchmark} {ws : List (UInt64 × UInt64)} {items : List (Option UInt32)}

theorem isOver_iff : b.isOver = true ↔ b.last < b.next := decide_eq_true_iff

theorem asks_eq (b : Benchmark) : b.asks = asked b.batchSize b.last b.next := by
  rw [asks, asked]
  simp only [isOver_iff]
  rfl

theorem not_isOver_iff : b.isOver = false ↔ b.next ≤ b.last :=
  Bool.eq_false_iff.trans ((not_congr isOver_iff).trans UInt64.not_lt)

/-- A benchmark breaks off just at a window that ends at the greatest word. -/
theorem absorb?_eq_none : b.absorb? items = none ↔ b.windowEnd = greatest := by
  rw [absorb?]
  split
  case isTrue top => exact iff_of_true rfl top
  case isFalse countable => exact iff_of_false nofun countable

theorem absorb?_eq_some (h : b.absorb? items = some after) :
    b.windowEnd ≠ greatest ∧
      after = { b with next := b.windowEnd + 1, tally := b.tally.add items } := by
  rw [absorb?] at h
  split at h
  case isTrue => cases h
  case isFalse countable => exact ⟨countable, (Option.some.inj h).symm⟩

theorem Visited.walked (visited : b.Visited ws b') :
    b'.last = b.last ∧ b'.batchSize = b.batchSize ∧ Walked b.batchSize b.last b.next ws b'.next := by
  induction visited with
  | start => exact ⟨rfl, rfl, .start⟩
  | @window ws b' _ _ more items goesOn ih =>
    obtain ⟨last, size, walked⟩ := ih
    obtain ⟨countable, rfl⟩ := absorb?_eq_some goesOn
    refine ⟨last, size, ?_⟩
    rw [windowEnd, last, size] at countable
    have step := walked.step (last ▸ not_isOver_iff.mp more) countable
    rwa [← last, ← size] at step ⊢

/-- A benchmark may visit its first window first. -/
theorem Visited.cons (more : b.isOver = false) (goesOn : b.absorb? items = some after)
    (visited : after.Visited ws b') : b.Visited ((b.next, b.windowEnd) :: ws) b' := by
  induction visited with
  | start => exact Visited.start.window more items goesOn
  | window _ more' items' goesOn' ih => exact ih.window more' items' goesOn'

theorem exists_visited_of_walked {next : UInt64}
    (walked : Walked b.batchSize b.last b.next ws next) : ∃ b', b.Visited ws b' ∧ b'.next = next := by
  induction walked with
  | start => exact ⟨b, .start, rfl⟩
  | @step ws next _ more countable ih =>
    obtain ⟨b', visited, rfl⟩ := ih
    obtain ⟨last, size, _⟩ := visited.walked
    have more : b'.isOver = false := not_isOver_iff.mpr (last.symm ▸ more)
    rw [← last, ← size] at countable
    refine ⟨{ b' with next := b'.windowEnd + 1, tally := b'.tally.add [] }, ?_, ?_⟩
    · rw [windowAt, ← last, ← size]
      exact visited.window more [] (if_neg countable)
    · rw [windowEnd, last, size]

/-- The windows of a benchmark are those of a walk. -/
theorem walks (b : Benchmark) : Walks b.batchSize b.last b.next b.Visits := by
  refine fun visited asks => ⟨?_, ?_⟩
  · rintro ⟨b', path, rfl⟩
    obtain ⟨last, size, walked⟩ := path.walked
    exact ⟨b'.next, walked, by rw [asks_eq, last, size]⟩
  · rintro ⟨next, walked, rfl⟩
    obtain ⟨b', path, rfl⟩ := exists_visited_of_walked walked
    obtain ⟨last, size, _⟩ := path.walked
    exact ⟨b', path, by rw [asks_eq, last, size]⟩

/-- A benchmark breaks off just where its range ends at the greatest word. -/
theorem breaksOff_iff (b : Benchmark) : b.BreaksOff ↔ b.last = greatest := by
  constructor
  · rintro ⟨ws, b', items, visited, more, none⟩
    obtain ⟨last, _⟩ := visited.walked
    by_contra below
    rw [← last] at below
    exact last_ne_greatest _ below (not_isOver_iff.mp more) (absorb?_eq_none.mp none)
  · intro top
    obtain ⟨ws, next, walked, uncountable⟩ := exists_walked_of_greatest b.batchSize b.next
    rw [← top] at walked
    obtain ⟨b', visited, rfl⟩ := exists_visited_of_walked walked
    obtain ⟨last, size, _⟩ := visited.walked
    refine ⟨ws, b', [], visited, not_isOver_iff.mpr ?_, absorb?_eq_none.mpr ?_⟩
    · rw [last, top]
      exact le_greatest b'.next
    · rw [windowEnd, last, size, top]
      exact uncountable

end Benchmark

/-- A benchmark that the crawler runs to its end visits windows until it is over. -/
theorem Crawler.visited_of_benchmarkWithin {fuel : Nat} {b : Benchmark} {w w' : Crawler}
    {tally : Tally} (done : benchmarkWithin fuel b w = (some (.ok tally), w')) :
    ∃ ws b', b.Visited ws b' ∧ b'.asks = none ∧ b'.tally = tally := by
  induction fuel generalizing b w with
  | zero => cases done
  | succ fuel ih =>
    rw [benchmarkWithin] at done
    split at done
    case isTrue past =>
      cases done
      exact ⟨[], b, .start, if_pos past, rfl⟩
    case isFalse more =>
      split at done
      case h_1 => cases done
      case h_2 =>
        split at done
        case h_1 =>
          split at done
          case h_1 after goesOn =>
            obtain ⟨ws, b', visited, stopped⟩ := ih done
            exact ⟨_, b', visited.cons (Bool.eq_false_iff.mpr more) goesOn, stopped⟩
          case h_2 => cases done
        case h_2 => cases done

/-- A benchmark up to the greatest word never runs to its end. -/
theorem Crawler.benchmarkWithin_of_greatest {b : Benchmark} (top : b.last = greatest) (fuel : Nat)
    (w w' : Crawler) (tally : Tally) : benchmarkWithin fuel b w ≠ (some (.ok tally), w') := by
  intro done
  obtain ⟨ws, b', visited, stopped, -⟩ := visited_of_benchmarkWithin done
  obtain ⟨last, -⟩ := visited.walked
  rw [Benchmark.asks_eq, last, top, asked_eq_some (le_greatest _)] at stopped
  cases stopped

/-! ## Index runs -/

section Indexing

variable {σ : Type} [Backend σ] [LawfulBackend σ] {plan : IndexPlan} {run after : IndexRun}
  {last : UInt64} {slots : List (Option BlockResult)} {s s' : σ}

/-- The slots of a window can be counted just where there is a number behind it. -/
theorem Window.canCount_slots_iff (inside : run.next ≤ last)
    (asked : slots.length = (numbers run.next last).length) :
    CanCount run.next slots.length ↔ last ≠ greatest := by
  rw [asked, canCount_numbers_iff]
  exact or_iff_left (UInt64.not_lt.mpr inside)

omit [LawfulBackend σ] in
/-- A window that ends at the greatest word breaks the run off, and nothing is stored. -/
theorem IndexPhase.onSlots_of_greatest (inside : run.next ≤ last)
    (asked : slots.length = (numbers run.next last).length) (top : last = greatest) :
    (askWindow run last).onSlots plan (.ok slots) s = (.broken, s) :=
  onSlots_broken plan run last s fun counted => (canCount_slots_iff inside asked).mp counted top

/-- Where no block of a window failed, the run steps back from its first block, or it saves the
number behind the window as its checkpoint and goes on there. -/
theorem IndexRun.next_of_whole_window (inside : run.next ≤ last)
    (asked : slots.length = (numbers run.next last).length)
    (whole : Batch.failedNumbers (IndexPhase.windowResults run.next slots) = [])
    (went : (IndexPhase.askWindow run last).onSlots plan (.ok slots) s = (.askHead after, s')) :
    (∃ block issue, leadingBlock? (IndexPhase.windowResults run.next slots) = some block ∧
      (view s).reorg? block.numberWord block.hashNormalized = some issue ∧
      view s' = (view s).addIssues [issue]) ∨
    (∃ stored : σ,
      view s' = (view stored).setCheckpoint .index (raised stored .index after.next)) ∧
      last < after.next := by
  by_cases countable : last = greatest
  case pos => cases (IndexPhase.onSlots_of_greatest inside asked countable).symm.trans went
  rw [IndexPhase.onSlots_ok plan run last s ((canCount_slots_iff inside asked).mpr countable)] at went
  obtain ⟨result, left, stepped, outcome⟩ := IndexPhase.onWindow_ok plan run last
    (IndexPhase.windowResults run.next slots) s
  rw [stepped] at went
  have next : Batch.nextAfter (IndexPhase.windowResults run.next slots) last = last + 1 := by
    rw [Batch.nextAfter, whole]
    rfl
  cases outcome with
  | stepsBack first _ _ changed left =>
    cases went
    exact .inl ⟨_, _, first, changed, left⟩
  | @stores _ stored _ _ _ _ _ _ left =>
    cases went
    refine .inr ⟨⟨stored, left⟩, ?_⟩
    show last < Batch.nextAfter _ last
    rw [next]
    exact lt_succ_iff.mpr countable
  | givesUp | breaksOff | outOfTime | outOfNumbers => cases went

/-- A window without failures has a first block. -/
theorem IndexRun.leads_of_whole {results : List BlockResult} (some : results ≠ [])
    (whole : Batch.failedNumbers results = []) : (leadingBlock? results).isSome := by
  obtain ⟨result, rest, rfl⟩ := List.exists_cons_of_ne_nil some
  cases sifted : Batch.sift result with
  | ok block =>
    obtain ⟨there, fine, _⟩ := Batch.sift_ok_iff.mp sifted
    rw [leadingBlock?, there, fine]
    rfl
  | error issue =>
    have failed : result.number ∈ Batch.failedNumbers (result :: rest) :=
      Batch.mem_failedNumbers.mpr ⟨result, List.mem_cons_self, rfl, issue, sifted⟩
    rw [whole] at failed
    cases failed

/-- In a sturdy store a run goes on from a window without failures, where its times fit and there is
a number behind it. -/
theorem IndexPhase.onSlots_goesOn (inside : run.next ≤ last)
    (asked : slots.length = (numbers run.next last).length)
    (whole : Batch.failedNumbers (windowResults run.next slots) = []) (countable : last ≠ greatest)
    (sturdy : Sturdy s) (fits : Batch.TimesFit (view s) (windowResults run.next slots)) :
    ∃ after s', (askWindow run last).onSlots plan (.ok slots) s = (.askHead after, s') := by
  rw [onSlots_ok plan run last s ((canCount_slots_iff inside asked).mpr countable)]
  obtain ⟨result, left, stepped, outcome⟩ := onWindow_ok plan run last (windowResults run.next slots) s
  rw [stepped]
  cases outcome with
  | stepsBack | stores => exact ⟨_, _, rfl⟩
  | givesUp missing =>
    have first := List.length_pos_of_mem (mem_numbers.mpr ⟨UInt64.le_refl run.next, inside⟩)
    rw [← asked, ← length_windowResults run.next slots] at first
    have leads := IndexRun.leads_of_whole (List.ne_nil_of_length_pos first) whole
    rw [missing] at leads
    cases leads
  | breaksOff frail => exact absurd sturdy frail
  | outOfTime _ _ unfit => exact absurd fits unfit
  | outOfNumbers _ _ _ top => exact absurd top countable

end Indexing

/-! ## Blocks that are given -/

namespace Batch

/-- The number behind given blocks is above all of their numbers, unless one is the greatest word. -/
theorem lt_numberBehind {blocks : List Block} (fits : NumbersFit blocks) :
    ∀ b ∈ blocks, ∀ n, b.checkedNumber = .ok n → n < numberBehind blocks := by
  intro b hb n number
  have other : n ≠ greatest := by
    rintro rfl
    exact fits b hb (congrArg Except.toOption number)
  have among : n + 1 ∈ blocks.filterMap fun b => b.checkedNumber.toOption.map (· + 1) :=
    List.mem_filterMap.mpr ⟨b, hb, by rw [number]; rfl⟩
  rw [numberBehind]
  cases most : (blocks.filterMap fun b => b.checkedNumber.toOption.map (· + 1)).max? with
  | none =>
    rw [List.max?_eq_none_iff.mp most] at among
    cases among
  | some m =>
    exact UInt64.lt_of_lt_of_le (lt_succ_iff.mpr other) ((List.max?_eq_some_iff.mp most).2 _ among)

theorem numbersFit_iff {blocks : List Block} :
    NumbersFit blocks ↔ ∀ b ∈ blocks, b.checkedNumber ≠ .ok greatest := by
  refine forall₂_congr fun b _ => not_congr ?_
  cases b.checkedNumber with
  | ok n => exact ⟨fun same => congrArg Except.ok (Option.some.inj same), fun same => same ▸ rfl⟩
  | error _ => exact ⟨nofun, nofun⟩

end Batch

/-! ## All of them -/

/-- Four programs step behind numbers, and each does so just where the greatest word is not among
them.  Otherwise it breaks off.

* Downloads in a sturdy store, and benchmarks, visit windows that have the numbers of their range in
  order, each once, and stop behind the last one, or else they break off.
* An index run breaks off at a window that ends at the greatest word, with nothing stored.  From any
  other window without failures it goes on, in a sturdy store and where the times fit.  Then it has
  saved a checkpoint and goes on above the window, unless it steps back because the first block of
  the window is stored with another hash.
* A write of blocks among which the greatest number is breaks off, with nothing stored.  Any other
  goes well, in a sturdy store and where the times fit, and reports a next block above all of their
  numbers. -/
theorem steps_behind_go_up_iff {σ : Type} [Backend σ] [LawfulBackend σ] :
    (∀ (elsewhere : σ → σ → Prop) (fetches : Fetches) (kind : DownloadKind) (order : DownloadOrder)
        (s : σ), Sturdy s → DownloadPhase.startBlock kind order (view s) ≤ order.last →
      (Partitions (DownloadPhase.startBlock kind order (view s)) order.last
        (order.Visits elsewhere fetches kind s) ↔ order.last ≠ greatest) ∧
      (order.BreaksOff elsewhere fetches kind s ↔ order.last = greatest)) ∧
    (∀ b : Benchmark, b.next ≤ b.last →
      (Partitions b.next b.last b.Visits ↔ b.last ≠ greatest) ∧ (b.BreaksOff ↔ b.last = greatest)) ∧
    (∀ (plan : IndexPlan) (run : IndexRun) (last : UInt64) (slots : List (Option BlockResult)) (s : σ),
      run.next ≤ last → slots.length = (numbers run.next last).length →
      let results := IndexPhase.windowResults run.next slots
      Batch.failedNumbers results = [] →
      (last = greatest → (IndexPhase.askWindow run last).onSlots plan (.ok slots) s = (.broken, s)) ∧
      (last ≠ greatest → Sturdy s → Batch.TimesFit (view s) results →
        ∃ after s', (IndexPhase.askWindow run last).onSlots plan (.ok slots) s = (.askHead after, s')) ∧
      ∀ after s', (IndexPhase.askWindow run last).onSlots plan (.ok slots) s = (.askHead after, s') →
        (∃ block issue, IndexRun.leadingBlock? results = some block ∧
          (view s).reorg? block.numberWord block.hashNormalized = some issue ∧
          view s' = (view s).addIssues [issue]) ∨
        (∃ stored : σ,
          view s' = (view stored).setCheckpoint .index (raised stored .index after.next)) ∧
          last < after.next) ∧
    ∀ (options : ClassifyOptions) (blocks : List Block) (s : σ),
      ((∃ b ∈ blocks, b.checkedNumber = .ok greatest) →
        (Batch.writeBlocks options blocks).on s = (.error .overflow, s)) ∧
      ((∀ b ∈ blocks, b.checkedNumber ≠ .ok greatest) → Sturdy s →
        Batch.TimesFit (view s) (Batch.givenResults blocks) →
        ∃ report s', (Batch.writeBlocks options blocks).on s = (.ok report, s')) ∧
      ∀ report s', (Batch.writeBlocks options blocks).on s = (.ok report, s') →
        ∀ b ∈ blocks, ∀ n, b.checkedNumber = .ok n → n < report.nextBlock := by
  refine ⟨?downloads, ?benchmarks, ?indexing, ?writes⟩
  case downloads =>
    exact fun _ _ _ _ _ sturdy start =>
      ⟨(download_walks sturdy).partitions_iff start, download_breaksOff_iff sturdy⟩
  case benchmarks => exact fun b start => ⟨b.walks.partitions_iff start, b.breaksOff_iff⟩
  case indexing =>
    intro plan run last slots s inside asked results whole
    exact ⟨IndexPhase.onSlots_of_greatest inside asked, IndexPhase.onSlots_goesOn inside asked whole,
      fun after s' went => IndexRun.next_of_whole_window inside asked whole went⟩
  case writes =>
    intro options blocks s
    refine ⟨?_, ?_, ?_⟩
    · rintro ⟨b, hb, top⟩
      exact Batch.writeBlocks_overflow fun fits => Batch.numbersFit_iff.mp fits.1 b hb top
    · intro below sturdy times
      obtain ⟨report, s', written, _⟩ :=
        Batch.writeBlocks_of_sturdy options sturdy ⟨Batch.numbersFit_iff.mpr below, times⟩
      exact ⟨report, s', written⟩
    · intro report s' written
      obtain ⟨fits, _, rfl⟩ := Batch.writeBlocks_ok written
      exact Batch.lt_numberBehind fits.1

theorem steps_behind_go_up_of_small :
    Partitions 0 2 (DownloadOrder.Visits (fun _ _ => False) {} .blocks ⟨0, 2, 2, "/dump", false⟩
      ({} : MemoryStore)) ∧
    Partitions 0 2 (Benchmark.Visits ⟨.blocks, 2, 2, 0, {}⟩) ∧
    (∃ after s', (IndexPhase.askWindow OneBlock.first 1).onSlots OneBlock.plan
      (.ok [some OneBlock.result]) ({} : MemoryStore) = (.askHead after, s') ∧ 1 < after.next) ∧
    ∃ report s', (Batch.writeBlocks ⟨false, false⟩ [OneBlock.block]).on ({} : MemoryStore) =
      (.ok report, s') ∧ 1 < report.nextBlock := by
  obtain ⟨downloads, benchmarks, indexing, writes⟩ := steps_behind_go_up_iff (σ := MemoryStore)
  refine ⟨?_, (benchmarks ⟨.blocks, 2, 2, 0, {}⟩ (by decide)).1.mpr (by decide), ?_, ?_⟩
  · exact (downloads _ _ .blocks ⟨0, 2, 2, "/dump", false⟩ {} rfl (by decide)).1.mpr (by decide)
  · obtain ⟨_, goesOn, up⟩ := indexing OneBlock.plan OneBlock.first 1 [some OneBlock.result] {}
      (by decide) (by decide) (by decide)
    obtain ⟨after, s', went⟩ := goesOn (by decide) rfl (by decide +kernel)
    refine ⟨after, s', went, ?_⟩
    rcases up after s' went with ⟨_, _, _, changed, _⟩ | ⟨_, above⟩
    · obtain ⟨row, stored, _⟩ := View.reorg?_eq_some.mp changed
      cases stored
    · exact above
  · obtain ⟨_, goes, above⟩ := writes ⟨false, false⟩ [OneBlock.block] {}
    obtain ⟨report, s', written⟩ := goes (by decide) rfl (by decide +kernel)
    exact ⟨report, s', written, above report s' written OneBlock.block (by decide) 1 (by decide)⟩

/-- Blocks whose number is the greatest word are not stored, and there is no next block to report. -/
theorem steps_behind_break_off_at_greatest :
    let top : Block := { number := "0xffffffffffffffff", hash := "0xab" }
    top.checkedNumber = .ok 0xFFFFFFFFFFFFFFFF ∧
      (Batch.writeBlocks ⟨false, false⟩ [top]).on ({} : MemoryStore) = (.error .overflow, {}) := by
  intro top
  exact ⟨by decide, Batch.writeBlocks_overflow (by decide +kernel)⟩

end ChainIndex
