import ChainIndex.Proofs.Download.Steps
import ChainIndex.Proofs.Store.Steady

/-!
# What a download accounts for

A download that ends well has been through every number of its range once.  Its report, the texts
that the writer was to write and the checkpoint all tell what came of the fetches
(`download_accounts_for_range`).

The invariant has two halves.  `Accounts` says what the report and the log have of the numbers behind
the download.  `Resumes` says where the checkpoint stands: at the first number that failed, or at the
next window (`Fetches.resume`).  That block never goes down as the download gets on, so what is saved
is always the checkpoint that stands then.
-/

namespace ChainIndex

open Window LawfulBackend

/-! ## Where to resume -/

namespace Fetches

variable (f : Fetches) (kind : DownloadKind)

/-- The block to resume at once the numbers up to `next` were fetched: the first one that failed, or
else `next`. -/
def resume (first next : UInt64) : UInt64 := (f.failed kind (upTo first next)).head?.getD next

theorem resume_self (first : UInt64) : f.resume kind first first = first := by
  rw [resume, upTo_self]
  rfl

variable {f kind} {first next later : UInt64}

theorem mem_failed {n : UInt64} {numbers : List UInt64} (h : n ∈ f.failed kind numbers) :
    n ∈ numbers := (List.mem_filter.mp h).1

theorem resume_bounds (h : first ≤ next) :
    first ≤ f.resume kind first next ∧ f.resume kind first next ≤ next := by
  rw [resume]
  cases least : (f.failed kind (upTo first next)).head? with
  | none => exact ⟨h, UInt64.le_refl _⟩
  | some n =>
    obtain ⟨lower, upper⟩ := mem_upTo.mp (mem_failed (List.mem_of_head? least))
    exact ⟨lower, UInt64.le_of_lt upper⟩

theorem resume_append (h : first ≤ next) (h' : next ≤ later) :
    f.resume kind first later =
      ((f.failed kind (upTo first next)).head?.or
        (f.failed kind (upTo next later)).head?).getD later := by
  rw [resume, ← upTo_append h h', failed_append, List.head?_append]

theorem resume_mono (h : first ≤ next) (h' : next ≤ later) :
    f.resume kind first next ≤ f.resume kind first later := by
  rw [resume_append h h', resume]
  cases (f.failed kind (upTo first next)).head? with
  | some n => exact UInt64.le_refl n
  | none => exact (resume_bounds h').1

end Fetches

/-! ## The report and the log -/

section Range

variable {fetches : Fetches} {kind : DownloadKind} {order : DownloadOrder} {first : UInt64}

/-- The report and the log of a download have every number from `first` up to its next window. -/
structure Accounts (fetches : Fetches) (kind : DownloadKind) (order : DownloadOrder)
    (first : UInt64) (run : DownloadRun) (log : DownloadLog) : Prop where
  kind_eq : run.kind = kind
  order_eq : run.order = order
  walked : Walked order.batchSize order.last first log.windows run.next
  handed : log.handed = fetches.items kind (upTo first run.next)
  written : run.report.written = log.told.sum
  failed : run.report.failed = (fetches.failed kind (upTo first run.next)).length
  nextBlock : run.report.nextBlock = run.next
  firstFailed : run.firstFailed = (fetches.failed kind (upTo first run.next)).head?

namespace Accounts

variable {run : DownloadRun} {log : DownloadLog}

theorem start :
    Accounts fetches kind order first ⟨kind, order, first, { nextBlock := first }, none⟩ {} where
  kind_eq := rfl
  order_eq := rfl
  walked := .start
  handed := by rw [upTo_self]; rfl
  written := rfl
  failed := by rw [upTo_self]; rfl
  nextBlock := rfl
  firstFailed := by rw [upTo_self]; rfl

theorem windowEnd_eq (h : Accounts fetches kind order first run log) :
    run.windowEnd = Window.last run.next order.batchSize order.last := by
  rw [DownloadRun.windowEnd, h.order_eq]

theorem windowEnd_bounds (h : Accounts fetches kind order first run log)
    (more : run.next ≤ order.last) : run.next ≤ run.windowEnd ∧ run.windowEnd ≤ order.last := by
  rw [h.windowEnd_eq]
  exact last_bounds _ more

theorem reach_eq (h : Accounts fetches kind order first run log) :
    run.reach = fetches.resume kind first run.next := by
  rw [DownloadRun.reach, h.firstFailed, Fetches.resume]

theorem absorbed (h : Accounts fetches kind order first run log) (more : run.next ≤ order.last)
    (countable : run.windowEnd ≠ greatest) (count : Nat) :
    Accounts fetches kind order first
      (run.absorbed run.windowEnd (fetches.harvest kind run.next run.windowEnd) count)
      (log.add run.next run.windowEnd (fetches.harvest kind run.next run.windowEnd) count) := by
  rw [h.windowEnd_eq] at countable
  have behind := h.walked.upTo_last more countable
  rw [← h.windowEnd_eq] at behind
  rw [Fetches.harvest_eq]
  constructor
  case kind_eq => exact h.kind_eq
  case order_eq => exact h.order_eq
  case walked =>
    rw [h.windowEnd_eq]
    exact h.walked.step more countable
  case handed =>
    show log.handed ++ _ = fetches.items kind (upTo first (run.windowEnd + 1))
    rw [behind, Fetches.items_append, h.handed]
  case written =>
    show run.report.written + count = (log.told ++ [count]).sum
    rw [h.written, List.sum_append, List.sum_singleton]
  case failed =>
    show run.report.failed + _ = (fetches.failed kind (upTo first (run.windowEnd + 1))).length
    rw [behind, Fetches.failed_append, List.length_append, h.failed]
  case nextBlock => rfl
  case firstFailed =>
    show run.firstFailed.or _ = (fetches.failed kind (upTo first (run.windowEnd + 1))).head?
    rw [behind, Fetches.failed_append, List.head?_append, h.firstFailed,
      fetches.min?_failed kind (numbers_sorted _ _)]

theorem next_bounds (h : Accounts fetches kind order first run log) (start : first ≤ order.last)
    (below : order.last ≠ greatest) : first ≤ run.next ∧ run.next ≤ order.last + 1 :=
  ⟨h.walked.first_le, h.walked.le_succ start below⟩

end Accounts

/-! ## The checkpoint -/

section Checkpoint

variable {σ : Type} [Backend σ] [LawfulBackend σ] {old : Option UInt64}
  {run : DownloadRun} {log : DownloadLog} {w w' : TraceWatched σ}

/-- Behind each of its windows a download saved the block to resume at, and the checkpoint stands
there. -/
structure Resumes (fetches : Fetches) (kind : DownloadKind) (first : UInt64) (run : DownloadRun)
    (log : DownloadLog) (w : TraceWatched σ) : Prop where
  saves : w.saves = log.windows.map fun window => fetches.resume kind first (window.2 + 1)
  bounded : ∀ c, (view w.store).checkpoint? .trace = some c → c ≤ fetches.resume kind first run.next
  reached : log.windows ≠ [] →
    (view w.store).checkpoint? .trace = some (fetches.resume kind first run.next)

namespace Resumes

end Resumes

/-- A download that keeps the checkpoint of traces resumes, and any other leaves it as it was. -/
def Kept (fetches : Fetches) (kind : DownloadKind) (order : DownloadOrder) (first : UInt64)
    (old : Option UInt64) (run : DownloadRun) (log : DownloadLog) (w : TraceWatched σ) : Prop :=
  if DownloadRun.keepsCheckpoint kind order then Resumes fetches kind first run log w
  else w.saves = [] ∧ (view w.store).checkpoint? .trace = old

/-- A checkpoint that is kept is not above the first block of the download. -/
theorem DownloadPhase.le_startBlock {v : View} {c : UInt64}
    (keeps : DownloadRun.keepsCheckpoint kind order = true) (hc : v.checkpoint? .trace = some c) :
    c ≤ startBlock kind order v := by
  rw [startBlock, if_pos keeps, firstBlock, hc]
  exact le_max_left c order.first

theorem Kept.start (kind : DownloadKind) (order : DownloadOrder) (report : DownloadReport) (s : σ) :
    Kept fetches kind order (DownloadPhase.startBlock kind order (view s))
      ((view s).checkpoint? .trace)
      ⟨kind, order, DownloadPhase.startBlock kind order (view s), report, none⟩ {} (.mk s []) := by
  rw [Kept]
  split
  case isFalse => exact ⟨rfl, rfl⟩
  case isTrue keeps =>
    refine ⟨rfl, fun c standing => ?_, fun some => absurd rfl some⟩
    rw [Fetches.resume_self]
    exact DownloadPhase.le_startBlock keeps standing

/-- Others leave the checkpoint alone. -/
theorem Kept.other (h : Kept fetches kind order first old run log w)
    (change : TraceWatched.LeavesTraces w w') : Kept fetches kind order first old run log w' := by
  obtain ⟨checkpoint, saves⟩ := change
  have checkpoint : (view w'.store).checkpoint? .trace = (view w.store).checkpoint? .trace :=
    checkpoint
  rw [Kept] at h ⊢
  split at h
  case isTrue yes =>
    rw [if_pos yes]
    exact ⟨saves.trans h.saves, checkpoint ▸ h.bounded, checkpoint ▸ h.reached⟩
  case isFalse no =>
    rw [if_neg no]
    exact ⟨saves.trans h.1, checkpoint.trans h.2⟩

/-! ## Whole downloads -/

variable [RaisingBackend σ]

/-- The numbers up to the one behind the range are in order, where the checkpoint is kept. -/
def OrderedUpTo (σ : Type) [Backend σ] [LawfulBackend σ] [RaisingBackend σ] (kind : DownloadKind)
    (order : DownloadOrder) : Prop :=
  DownloadRun.keepsCheckpoint kind order = true →
    ∀ n ≤ order.last + 1, RaisingBackend.Ordered σ n

/-- The checkpoint is raised to the block to resume at. -/
theorem Resumes.raised (h : Resumes fetches kind first run log w) (start : first ≤ run.next)
    {next : UInt64} (up : run.next ≤ next) (ordered : ∀ n ≤ next, RaisingBackend.Ordered σ n) :
    LawfulBackend.raised w.store .trace (fetches.resume kind first next) =
      fetches.resume kind first next := by
  have stands : ∀ c, (view w.store).checkpoint? .trace = some c →
      c ≤ fetches.resume kind first next := fun c hc =>
    UInt64.le_trans (h.bounded c hc) (Fetches.resume_mono start up)
  have within {n : UInt64} (hn : n ≤ fetches.resume kind first next) : RaisingBackend.Ordered σ n :=
    ordered n (UInt64.le_trans hn (Fetches.resume_bounds (UInt64.le_trans start up)).2)
  rw [RaisingBackend.raised_of_ordered (within (UInt64.le_refl _)) fun c hc => within (stands c hc),
    View.raised_of_le stands]

theorem Kept.absorbed (h : Kept fetches kind order first old run log w)
    (accounts : Accounts fetches kind order first run log) (start : first ≤ order.last)
    (below : order.last ≠ greatest) (ordered : OrderedUpTo σ kind order)
    (more : run.next ≤ order.last) {count : Nat} {after : DownloadRun}
    (done : (run.absorb run.windowEnd (fetches.harvest kind run.next run.windowEnd) count).on w =
      (.ok after, w')) :
    Kept fetches kind order first old after
      (log.add run.next run.windowEnd (fetches.harvest kind run.next run.windowEnd) count) w' := by
  obtain ⟨countable, rfl, saved⟩ := DownloadRun.absorb_ok done
  have reach := (accounts.absorbed more countable count).reach_eq
  rw [accounts.kind_eq, accounts.order_eq, reach] at saved
  rw [Kept] at h ⊢
  split at h
  case isFalse no =>
    rw [if_neg no] at saved ⊢
    exact saved ▸ h
  case isTrue yes =>
    rw [if_pos yes] at saved ⊢
    obtain ⟨lower, upper⟩ := accounts.windowEnd_bounds more
    have top := UInt64.lt_of_le_of_lt upper (lt_greatest_iff.mpr below)
    have up : run.next ≤ run.windowEnd + 1 := UInt64.le_trans lower (UInt64.le_of_lt (lt_succ top))
    have within : run.windowEnd + 1 ≤ order.last + 1 :=
      succ_le (UInt64.lt_of_le_of_lt upper (lt_succ_iff.mpr below))
    obtain ⟨stored, saves⟩ := TraceWatched.saveCheckpoint_ok saved
    have content := ((saveCheckpoint_on w.store .trace _).of_ok stored).2
    -- the checkpoint that stood is not above the one that is saved, so the store takes it as it is
    have checkpoint : (view w'.store).checkpoint? .trace =
        some (fetches.resume kind first (run.windowEnd + 1)) := by
      rw [content]
      exact congrArg some (h.raised (accounts.next_bounds start below).1 up fun n hn =>
        ordered yes n (UInt64.le_trans hn within))
    refine ⟨?_, fun c hc => ?_, fun _ => checkpoint⟩
    · rw [saves, h.saves, DownloadLog.add, List.map_append]
      rfl
    · cases checkpoint.symm.trans hc
      exact UInt64.le_refl _

end Checkpoint

end Range

/-! ## Two windows -/

namespace SkippedBlock

/-- Three blocks in two windows. -/
def order : DownloadOrder := ⟨0, 2, 2, "/dump", true⟩

/-- The traces of all blocks but the one in the middle. -/
def fetches : Fetches where
  traces n := if n = 1 then none else some ⟨n, some [], some "[]", none, 0⟩

/-- The download before its first window. -/
def run : DownloadRun := ⟨.traces, order, 0, { nextBlock := 0 }, none⟩

/-- The download before its second window. -/
def resumed : DownloadRun := run.absorbed 1 (fetches.harvest .traces 0 1) 1

/-- In an empty store the download is through after two windows. -/
theorem steps : ∃ (report : DownloadReport) (s' : MemoryStore) (log : DownloadLog),
    DownloadSteps LeavesTraces fetches (.begin .traces order ({} : MemoryStore))
      ⟨.ended (.ok report), s', log⟩ ∧
    log.windows = [(0, 1), (2, 2)] ∧ log.told = [1, 1] := by
  have begun : DownloadSteps LeavesTraces fetches (.begin .traces order ({} : MemoryStore))
      ⟨.askWindow run 1, {}, {}⟩ := .refl
  have fetched : DownloadSteps LeavesTraces fetches (.begin .traces order ({} : MemoryStore))
      ⟨.askWritten run 1 (fetches.harvest .traces 0 1), {}, {}⟩ := begun.tail .window
  have written := fetched.tail (.written 1)
  have next : ((DownloadPhase.askWritten run 1 (fetches.harvest .traces 0 1)).onWritten (.ok 1)
      ({} : MemoryStore)).1 = .askWindow resumed 2 := rfl
  rw [next] at written
  exact ⟨_, _, _, (written.tail .window).tail (.written 1), rfl, rfl⟩

end SkippedBlock

end ChainIndex
