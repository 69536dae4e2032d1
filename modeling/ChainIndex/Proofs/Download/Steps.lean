import ChainIndex.Crawler.Crews
import ChainIndex.Proofs.Download.OnDisk
import ChainIndex.Proofs.Store.Raised
import ChainIndex.Proofs.Window.Walk

/-!
# Steps of a download

A download gets the texts of a window, hands them to the writer, and learns how many were written.
`DownloadSteps` is a run of one download among others who may change the store at any time.  The log
of a run has what passed between it and the writer.

How the fetches go is any function of the block number (`Fetches`): a slot stays empty, brings an
error, or brings a text.  A window then has the texts of those that came, and the numbers of all
others (`Fetches.harvest_eq`).
-/

namespace ChainIndex

/-! ## Fetches -/

/-- What stands in the slots of a download, for the number of each block. -/
structure Fetches where
  blocks : UInt64 → Option BlockResult := fun _ => none
  traces : UInt64 → Option TraceResult := fun _ => none

namespace Fetches

variable (f : Fetches) (kind : DownloadKind)

/-- The text that came for a number, where its fetch went well. -/
def text? (n : UInt64) : Option String :=
  match kind with
  | .blocks => (f.blocks n).bind fun r => if r.fault.isNone then r.raw else none
  | .traces => (f.traces n).bind fun r => if r.fault.isNone then r.raw else none

/-- The texts in the slots of a window. -/
def texts (first last : UInt64) : List (Option String) :=
  match kind with
  | .blocks => Crawler.blockTexts ((Window.numbers first last).map f.blocks)
  | .traces => Crawler.traceTexts ((Window.numbers first last).map f.traces)

/-- The harvest of a window. -/
def harvest (first last : UInt64) : Harvest := Harvest.ofTexts first (f.texts kind first last)

/-- The numbers among some whose fetch failed. -/
def failed (numbers : List UInt64) : List UInt64 := numbers.filter fun n => (f.text? kind n).isNone

/-- The numbers among some whose fetch went well, each with its own text. -/
def items (numbers : List UInt64) : List (UInt64 × String) :=
  numbers.filterMap fun n => (f.text? kind n).map fun text => (n, text)

theorem texts_eq (first last : UInt64) :
    f.texts kind first last = (Window.numbers first last).map (f.text? kind) := by
  cases kind with
  | blocks => exact List.map_map
  | traces => exact List.map_map

/-- The slots of a window belong to its numbers. -/
theorem numbered_texts (first last : UInt64) :
    (f.texts kind first last).zipIdx.map (fun (text, i) => (first + UInt64.ofNat i, text)) =
      (Window.numbers first last).map fun n => (n, f.text? kind n) := by
  rw [texts_eq]
  refine List.ext_getElem (by simp) fun i _ _ => ?_
  simp only [Window.numbers, List.getElem_map, List.getElem_zipIdx, List.getElem_range, Nat.zero_add]

theorem harvest_eq (first last : UInt64) :
    f.harvest kind first last =
      ⟨f.items kind (Window.numbers first last), f.failed kind (Window.numbers first last)⟩ := by
  rw [harvest, Harvest.ofTexts, numbered_texts]
  simp only [List.filterMap_map, List.filter_map, List.map_map, Harvest.mk.injEq]
  exact ⟨rfl, List.map_id _⟩

theorem length_texts (first last : UInt64) :
    (f.texts kind first last).length = (Window.numbers first last).length := by
  rw [texts_eq, List.length_map]

/-- The texts of a window are harvested where there is a number behind it. -/
theorem onTexts_of_ne {run : DownloadRun} {last : UInt64} (countable : last ≠ Window.greatest) :
    (DownloadPhase.askWindow run last).onTexts (.ok (f.texts run.kind run.next last)) =
      .askWritten run last (f.harvest run.kind run.next last) := by
  rw [DownloadPhase.onTexts, length_texts, if_pos (Window.canCount_numbers_iff.mpr (.inl countable))]
  rfl

/-- Otherwise they cannot be counted, and the download breaks off. -/
theorem onTexts_of_greatest {run : DownloadRun} (more : run.next ≤ run.order.last)
    (top : run.windowEnd = Window.greatest) :
    (DownloadPhase.askWindow run run.windowEnd).onTexts
      (.ok (f.texts run.kind run.next run.windowEnd)) = .broken := by
  have inside : run.next ≤ run.windowEnd := (Window.last_bounds run.order.batchSize more).1
  rw [DownloadPhase.onTexts, length_texts, if_neg]
  exact fun counted => (Window.canCount_numbers_iff.mp counted).elim (fun below => below top)
    (UInt64.not_lt.mpr inside)

theorem failed_append (front back : List UInt64) :
    f.failed kind (front ++ back) = f.failed kind front ++ f.failed kind back :=
  List.filter_append front back

theorem items_append (front back : List UInt64) :
    f.items kind (front ++ back) = f.items kind front ++ f.items kind back :=
  List.filterMap_append

/-- In ascending numbers the least failed one comes first. -/
theorem min?_failed {numbers : List UInt64} (sorted : numbers.Pairwise (· < ·)) :
    (f.failed kind numbers).min? = (f.failed kind numbers).head? := by
  have sorted : (f.failed kind numbers).Pairwise (· < ·) := sorted.filter _
  cases failed : f.failed kind numbers with
  | nil => rfl
  | cons n rest =>
    rw [failed] at sorted
    refine List.min?_eq_some_iff.mpr ⟨List.mem_cons_self, ?_⟩
    refine List.forall_mem_cons.mpr ⟨UInt64.le_refl n, fun m hm => UInt64.le_of_lt ?_⟩
    exact (List.pairwise_cons.mp sorted).1 m hm

end Fetches

/-! ## Runs -/

/-- What passed between a download and the writer. -/
structure DownloadLog where
  /-- The first and the last block of each window that was written. -/
  windows : List (UInt64 × UInt64) := []
  /-- The texts that the writer was to write, each with its number. -/
  handed : List (UInt64 × String) := []
  /-- How many of them the writer wrote, for each window. -/
  told : List Nat := []

/-- One more window is written. -/
def DownloadLog.add (log : DownloadLog) (first last : UInt64) (window : Harvest) (count : Nat) :
    DownloadLog where
  windows := log.windows ++ [(first, last)]
  handed := log.handed ++ window.items
  told := log.told ++ [count]

/-- A download, the store and the log. -/
structure DownloadState (τ : Type) where
  phase : DownloadPhase
  store : τ
  log : DownloadLog := {}

section Steps

variable {τ : Type} [Backend τ]

/-- A download gets behind a window once its checkpoint is saved, if it keeps one. -/
theorem DownloadRun.absorb_ok {r run : DownloadRun} {last : UInt64} {window : Harvest}
    {written : Nat} {s s' : τ} (h : (r.absorb last window written).on s = (.ok run, s')) :
    last ≠ Window.greatest ∧ run = r.absorbed last window written ∧
      if keepsCheckpoint r.kind r.order then
        (Backend.saveCheckpoint .trace run.reach).on s = (.ok (), s')
      else s' = s := by
  by_cases countable : last = Window.greatest
  case pos => cases (absorb_of_greatest countable).symm.trans h
  by_cases kept : keepsCheckpoint r.kind r.order
  · rw [absorb_of_kept countable kept] at h
    rw [if_pos kept]
    rcases saved : (Backend.saveCheckpoint .trace (r.absorbed last window written).reach).on s with
      ⟨fault | ⟨⟩, left⟩
    · rw [saved] at h
      cases h
    · rw [saved] at h
      cases h
      exact ⟨countable, rfl, saved⟩
  · rw [absorb_of_free countable kept] at h
    rw [if_neg kept]
    cases h
    exact ⟨countable, rfl, rfl⟩

/-- A download whose window is written is between two windows again. -/
theorem DownloadPhase.onWritten_ok {run after : DownloadRun} {last : UInt64} {window : Harvest}
    {count : Nat} {s s' : τ} (done : (run.absorb last window count).on s = (.ok after, s')) :
    (askWritten run last window).onWritten (.ok count) s = (.ofRun after, s') := by
  show ofStep (run.absorb last window count) s = _
  rw [ofStep_eq, done]
  rfl

/-- Where there is a number behind its window, a download does not break off. -/
theorem DownloadPhase.onWritten_error {run : DownloadRun} {last : UInt64} {window : Harvest}
    {count : Nat} {halt : Halt} {s s' : τ} (countable : last ≠ Window.greatest)
    (done : (run.absorb last window count).on s = (.error halt, s')) :
    ∃ fault, (askWritten run last window).onWritten (.ok count) s = (.ended (.error fault), s') := by
  have stepped : (askWritten run last window).onWritten (.ok count) s = (ofResult (.error halt), s') := by
    show ofStep (run.absorb last window count) s = _
    rw [ofStep_eq, done]
  cases halt with
  | fault fault => exact ⟨fault, stepped⟩
  | overflow =>
    by_cases kept : DownloadRun.keepsCheckpoint run.kind run.order
    · rw [DownloadRun.absorb_of_kept countable kept] at done
      split at done <;> cases done
    · rw [DownloadRun.absorb_of_free countable kept] at done
      cases done

/-- A download that was just ordered. -/
def DownloadState.begin (kind : DownloadKind) (order : DownloadOrder) (s : τ) : DownloadState τ :=
  ⟨(DownloadPhase.start kind order s).1, (DownloadPhase.start kind order s).2, {}⟩

/-- A step of a download whose fetches go like this, or of someone else, who changes the store in
some way. -/
inductive DownloadStep (elsewhere : τ → τ → Prop) (fetches : Fetches) :
    DownloadState τ → DownloadState τ → Prop
  /-- The window comes. -/
  | window {run : DownloadRun} {last : UInt64} {s : τ} {log : DownloadLog} :
      DownloadStep elsewhere fetches ⟨.askWindow run last, s, log⟩
        ⟨(DownloadPhase.askWindow run last).onTexts
          (.ok (fetches.texts run.kind run.next last)), s, log⟩
  /-- The window does not come. -/
  | unfetched {run : DownloadRun} {last : UInt64} {s : τ} {log : DownloadLog} (fault : CrawlFault) :
      DownloadStep elsewhere fetches ⟨.askWindow run last, s, log⟩
        ⟨(DownloadPhase.askWindow run last).onTexts (.error fault), s, log⟩
  /-- The writer is through with the texts and says how many it wrote. -/
  | written {run : DownloadRun} {last : UInt64} {window : Harvest} {s : τ} {log : DownloadLog}
      (count : Nat) :
      DownloadStep elsewhere fetches ⟨.askWritten run last window, s, log⟩
        ⟨((DownloadPhase.askWritten run last window).onWritten (.ok count) s).1,
          ((DownloadPhase.askWritten run last window).onWritten (.ok count) s).2,
          log.add run.next last window count⟩
  /-- The writer does not answer. -/
  | unwritten {run : DownloadRun} {last : UInt64} {window : Harvest} {s : τ} {log : DownloadLog}
      (fault : CrawlFault) :
      DownloadStep elsewhere fetches ⟨.askWritten run last window, s, log⟩
        ⟨((DownloadPhase.askWritten run last window).onWritten (.error fault) s).1,
          ((DownloadPhase.askWritten run last window).onWritten (.error fault) s).2, log⟩
  /-- Someone else changes the store. -/
  | other {phase : DownloadPhase} {s s' : τ} {log : DownloadLog} (change : elsewhere s s') :
      DownloadStep elsewhere fetches ⟨phase, s, log⟩ ⟨phase, s', log⟩

/-- A download goes on for some steps. -/
abbrev DownloadSteps (elsewhere : τ → τ → Prop) (fetches : Fetches) :
    DownloadState τ → DownloadState τ → Prop :=
  Relation.ReflTransGen (DownloadStep elsewhere fetches)

/-! ## Invariants -/

/-- What is true of a download between two windows, in every phase until it fails, or breaks off at a
window behind which there is no number. -/
inductive Along (fetches : Fetches) (Inv : DownloadRun → DownloadLog → τ → Prop) :
    DownloadState τ → Prop
  | asks {run : DownloadRun} {log : DownloadLog} {s : τ} (inv : Inv run log s)
      (more : run.next ≤ run.order.last) : Along fetches Inv ⟨.askWindow run run.windowEnd, s, log⟩
  | hands {run : DownloadRun} {log : DownloadLog} {s : τ} (inv : Inv run log s)
      (more : run.next ≤ run.order.last) (countable : run.windowEnd ≠ Window.greatest) :
      Along fetches Inv
        ⟨.askWritten run run.windowEnd (fetches.harvest run.kind run.next run.windowEnd), s, log⟩
  | through {run : DownloadRun} {log : DownloadLog} {s : τ} (inv : Inv run log s)
      (past : run.order.last < run.next) : Along fetches Inv ⟨.ended (.ok run.report), s, log⟩
  | failed {log : DownloadLog} {s : τ} (fault : CrawlFault) :
      Along fetches Inv ⟨.ended (.error fault), s, log⟩
  | broken {run : DownloadRun} {log : DownloadLog} {s : τ} (inv : Inv run log s)
      (more : run.next ≤ run.order.last) (uncountable : run.windowEnd = Window.greatest) :
      Along fetches Inv ⟨.broken, s, log⟩

/-- What others do keeps something true of a download, and so does a window that is written. -/
structure Stable (elsewhere : τ → τ → Prop) (fetches : Fetches)
    (Inv : DownloadRun → DownloadLog → τ → Prop) : Prop where
  other {run : DownloadRun} {log : DownloadLog} {s s' : τ} (inv : Inv run log s)
    (change : elsewhere s s') : Inv run log s'
  written {run after : DownloadRun} {log : DownloadLog} {s s' : τ} {count : Nat}
    (inv : Inv run log s) (more : run.next ≤ run.order.last)
    (done : (run.absorb run.windowEnd (fetches.harvest run.kind run.next run.windowEnd) count).on s =
      (.ok after, s')) :
    Inv after (log.add run.next run.windowEnd
      (fetches.harvest run.kind run.next run.windowEnd) count) s'

namespace Along

variable {elsewhere : τ → τ → Prop} {fetches : Fetches}
  {Inv : DownloadRun → DownloadLog → τ → Prop}

omit [Backend τ] in
/-- Between two windows a download asks for the next one, or is over. -/
theorem ofRun {run : DownloadRun} {log : DownloadLog} {s : τ} (inv : Inv run log s) :
    Along fetches Inv ⟨.ofRun run, s, log⟩ := by
  rw [DownloadPhase.ofRun]
  split
  case isTrue past => exact .through inv past
  case isFalse more => exact .asks inv (UInt64.not_lt.mp more)

theorem step {before after : DownloadState τ} (h : Along fetches Inv before)
    (stable : Stable elsewhere fetches Inv) (step : DownloadStep elsewhere fetches before after) :
    Along fetches Inv after := by
  cases step with
  | @window run =>
    cases h with
    | asks inv more =>
      by_cases countable : run.windowEnd = Window.greatest
      · rw [fetches.onTexts_of_greatest more countable]
        exact .broken inv more countable
      · rw [fetches.onTexts_of_ne countable]
        exact .hands inv more countable
  | unfetched fault => exact .failed fault
  | @written run last window s log count =>
    cases h with
    | hands inv more countable =>
      rcases done : (run.absorb run.windowEnd
        (fetches.harvest run.kind run.next run.windowEnd) count).on s with ⟨halt | after, s'⟩
      · obtain ⟨fault, fails⟩ := DownloadPhase.onWritten_error countable done
        rw [fails]
        exact .failed fault
      · rw [DownloadPhase.onWritten_ok done]
        exact .ofRun (stable.written inv more done)
  | unwritten fault => exact .failed fault
  | other change =>
    cases h with
    | asks inv more => exact .asks (stable.other inv change) more
    | hands inv more countable => exact .hands (stable.other inv change) more countable
    | through inv past => exact .through (stable.other inv change) past
    | failed fault => exact .failed fault
    | broken inv more uncountable => exact .broken (stable.other inv change) more uncountable

theorem steps {before after : DownloadState τ} (h : Along fetches Inv before)
    (stable : Stable elsewhere fetches Inv) (steps : DownloadSteps elsewhere fetches before after) :
    Along fetches Inv after := by
  induction steps with
  | refl => exact h
  | tail _ step ih => exact ih.step stable step

end Along

end Steps

/-! ## Runs that are watched -/

section Watched

variable {σ : Type} [Backend σ]

open Around

theorem DownloadRun.follows_absorb (r : DownloadRun) (last : UInt64) (window : Harvest)
    (written : Nat) :
    Follows inner (r.absorb last window written : Checked (TraceWatched σ) DownloadRun)
      (r.absorb last window written) := by
  rw [absorb, absorb]
  refine .bind (.inRange _) fun _ => ?_
  exact .ite (.bind (.checked (saveCheckpoint _ _)) fun _ => .pure _) (.bind (.pure ()) fun _ => .pure _)

theorem DownloadPhase.ofStep_follows {whole : Checked (TraceWatched σ) DownloadRun}
    {step : Checked σ DownloadRun} (h : Follows inner whole step) (w : TraceWatched σ) :
    ofStep step w.store = ((ofStep whole w).1, (ofStep whole w).2.store) := by
  obtain ⟨answer, left⟩ := h w
  have left : (whole.on w).2.store = (step.on w.store).2 := left
  have answer : (whole.on w).1 = (step.on w.store).1 := answer
  rw [ofStep_eq, ofStep_eq, answer, left]

variable [LawfulBackend σ]

open LawfulBackend

theorem DownloadState.begin_eq (kind : DownloadKind) (order : DownloadOrder) (s : σ) :
    begin kind order s =
      ⟨.ofRun ⟨kind, order, DownloadPhase.startBlock kind order (view s),
        { nextBlock := DownloadPhase.startBlock kind order (view s) }, none⟩, s, {}⟩ := by
  rw [begin, DownloadPhase.start_eq]

theorem DownloadState.begin_watched (kind : DownloadKind) (order : DownloadOrder)
    (w : TraceWatched σ) :
    begin kind order w =
      ⟨.ofRun ⟨kind, order, DownloadPhase.startBlock kind order (view w.store),
        { nextBlock := DownloadPhase.startBlock kind order (view w.store) }, none⟩, w, {}⟩ := by
  rw [begin, DownloadPhase.start_of_lookup kind order (TraceWatched.getCheckpoint_on w .trace)]

/-- A change of the store leaves the checkpoint of traces alone. -/
def LeavesTraces (s s' : σ) : Prop :=
  (view s').checkpoint? .trace = (view s).checkpoint? .trace

/-- A change of a watched store leaves the checkpoint of traces alone and saves none. -/
def TraceWatched.LeavesTraces (w w' : TraceWatched σ) : Prop :=
  ChainIndex.LeavesTraces w.store w'.store ∧ w'.saves = w.saves

/-- A step of a download is one on the watched store. -/
theorem DownloadStep.lift {fetches : Fetches} {phase : DownloadPhase} {w : TraceWatched σ}
    {log : DownloadLog} {after : DownloadState σ}
    (step : DownloadStep LeavesTraces fetches ⟨phase, w.store, log⟩ after) :
    ∃ w' : TraceWatched σ, w'.store = after.store ∧
      DownloadStep TraceWatched.LeavesTraces fetches ⟨phase, w, log⟩ ⟨after.phase, w', after.log⟩ := by
  generalize here : (⟨phase, w.store, log⟩ : DownloadState σ) = before at step
  -- only what is written, or what others do, changes the store
  cases step with
  | window =>
    cases here
    exact ⟨w, rfl, .window⟩
  | unfetched fault =>
    cases here
    exact ⟨w, rfl, .unfetched fault⟩
  | @written run last window s log count =>
    cases here
    have follows := DownloadPhase.ofStep_follows (run.follows_absorb last window count) w
    have step : DownloadStep TraceWatched.LeavesTraces fetches ⟨.askWritten run last window, w, log⟩ _ :=
      .written count
    refine ⟨_, (congrArg Prod.snd follows).symm, ?_⟩
    have phases : ((DownloadPhase.askWritten run last window).onWritten (.ok count) w.store).1 = _ :=
      congrArg Prod.fst follows
    rw [phases]
    exact step
  | unwritten fault =>
    cases here
    exact ⟨w, rfl, .unwritten fault⟩
  | @other phase s s' log change =>
    cases here
    exact ⟨.mk s' w.saves, rfl, .other ⟨change, rfl⟩⟩

/-- A run of a download is one on the watched store. -/
theorem DownloadSteps.lift {fetches : Fetches} {phase : DownloadPhase} {w : TraceWatched σ}
    {log : DownloadLog} {after : DownloadState σ}
    (steps : DownloadSteps LeavesTraces fetches ⟨phase, w.store, log⟩ after) :
    ∃ w' : TraceWatched σ, w'.store = after.store ∧
      DownloadSteps TraceWatched.LeavesTraces fetches ⟨phase, w, log⟩ ⟨after.phase, w', after.log⟩ := by
  induction steps with
  | refl => exact ⟨w, rfl, .refl⟩
  | @tail middle after _ step ih =>
    obtain ⟨between, same, steps⟩ := ih
    obtain ⟨phase, s, log⟩ := middle
    cases same
    obtain ⟨w', left, step⟩ := step.lift
    exact ⟨w', left, steps.tail step⟩

/-- A run from its order on is one on the watched store. -/
theorem DownloadSteps.watched {fetches : Fetches} {kind : DownloadKind} {order : DownloadOrder}
    {phase : DownloadPhase} {s s' : σ} {log : DownloadLog}
    (run : DownloadSteps LeavesTraces fetches (.begin kind order s) ⟨phase, s', log⟩) :
    ∃ saves, DownloadSteps TraceWatched.LeavesTraces fetches (.begin kind order (.mk s []))
      ⟨phase, TraceWatched.mk s' saves, log⟩ := by
  have begun := DownloadState.begin_watched kind order (TraceWatched.mk s [])
  rw [DownloadState.begin_eq] at run
  obtain ⟨w, rfl, noted⟩ := DownloadSteps.lift (w := TraceWatched.mk s []) run
  rw [begun]
  exact ⟨w.saves, noted⟩

end Watched

end ChainIndex
