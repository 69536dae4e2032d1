import ChainIndex.Proofs.Index.Window
import ChainIndex.Proofs.Json.RoundTrip
import ChainIndex.Proofs.Store.Lawful
import ChainIndex.Run.Download

/-!
# What the checkpoint of traces promises

A download of traces saves a checkpoint that no fetch failed below, and the next one starts there.
So every block below the checkpoint was handed to the writer of files (`Dumped`), over all downloads
from the same block, however many of them run at once and wherever they break off.

The writer skips a file that it cannot write, and says how many it wrote.  A download keeps that
number for its report and looks at it no further, and so the checkpoint also passes the blocks whose
files could not be written.  Where no call of the writer counts fewer texts than it was handed, the
files of all blocks below the checkpoint were written.
-/

namespace ChainIndex

/-! ## What the writer does -/

namespace FileTree

theorem read?_put (t : FileTree) (path text other : String) :
    (t.put path text).read? other =
      if t.key other = t.key path then some text else t.read? other :=
  Json.lookup_insertMember ..

/-- No file goes away when another one is written. -/
theorem isSome_read?_put (t : FileTree) (path text : String) {other : String}
    (there : (t.read? other).isSome) : ((t.put path text).read? other).isSome := by
  rw [read?_put]
  split
  case isTrue => rfl
  case isFalse => exact there

theorem write_ok {t t' : FileTree} {path text : String} (written : t.write path text = .ok t') :
    t' = t.put path text := by
  rw [write] at written
  split at written
  case isTrue => cases written
  case isFalse =>
    split at written
    case isTrue => cases written
    case isFalse =>
      cases written
      rfl

/-- One text is written, or skipped. -/
def writeNext (root directory : String) (done : Nat × FileTree) (item : UInt64 × String) :
    Nat × FileTree :=
  match done.2.write (blockPath root directory item.1) item.2 with
  | .ok t => (done.1 + 1, t)
  | .error _ => done

variable {root directory : String}

theorem writeAll_eq (named : root.isEmpty = false) (t : FileTree) (items : List (UInt64 × String)) :
    t.writeAll root directory items = items.foldl (writeNext root directory) (0, t) := by
  rw [writeAll, named, if_neg Bool.false_ne_true]
  rfl

theorem foldl_writeNext_count_le (done : Nat × FileTree) (items : List (UInt64 × String)) :
    (items.foldl (writeNext root directory) done).1 ≤ done.1 + items.length := by
  induction items generalizing done with
  | nil => exact Nat.le_refl _
  | cons item items ih =>
    rw [List.foldl_cons, List.length_cons]
    refine Nat.le_trans (ih _) ?_
    rw [writeNext]
    split
    case h_1 =>
      dsimp only
      omega
    case h_2 => omega

theorem isSome_read?_foldl_writeNext (done : Nat × FileTree) (items : List (UInt64 × String))
    {path : String} (there : (done.2.read? path).isSome) :
    ((items.foldl (writeNext root directory) done).2.read? path).isSome := by
  induction items generalizing done with
  | nil => exact there
  | cons item items ih =>
    rw [List.foldl_cons]
    refine ih _ ?_
    rw [writeNext]
    split
    case h_1 t' written =>
      rw [write_ok written]
      exact done.2.isSome_read?_put _ _ there
    case h_2 => exact there

end FileTree

/-- A call of the writer: the files as it found them, the root, and the texts that it was handed. -/
structure WriterCall where
  files : FileTree
  root : String
  items : List (UInt64 × String)

namespace WriterCall

/-- How many texts it says that it wrote. -/
def count (c : WriterCall) : Nat := (c.files.writeAll c.root tracesDirectory c.items).1

/-- The files that it leaves. -/
def left (c : WriterCall) : FileTree := (c.files.writeAll c.root tracesDirectory c.items).2

/-- The file of a block. -/
def path (c : WriterCall) (n : UInt64) : String := FileTree.blockPath c.root tracesDirectory n

/-- It was handed the text of a block. -/
def Handed (c : WriterCall) (n : UInt64) : Prop := n ∈ c.items.map (·.1)

/-- It wrote the file of a block, when the texts before it were through. -/
def Wrote (c : WriterCall) (n : UInt64) : Prop :=
  c.root.isEmpty = false ∧ ∃ front text back, c.items = front ++ (n, text) :: back ∧
    ∃ t, (c.files.writeAll c.root tracesDirectory front).2.write (c.path n) text = .ok t

variable {c : WriterCall} {n : UInt64}

/-- A file that was written is there. -/
theorem Wrote.isSome_read? (h : c.Wrote n) : (c.left.read? (c.path n)).isSome := by
  obtain ⟨named, front, text, back, items, t, written⟩ := h
  rw [FileTree.writeAll_eq named] at written
  rw [left, FileTree.writeAll_eq named, items, List.foldl_append, List.foldl_cons]
  refine FileTree.isSome_read?_foldl_writeNext _ back ?_
  rw [path] at written ⊢
  rw [FileTree.writeNext, written]
  dsimp only
  rw [FileTree.write_ok written, FileTree.read?_put, if_pos rfl]
  rfl

/-- Where the writer counts as many texts as it was handed, it wrote each of them. -/
theorem wrote_of_count (all : c.items.length ≤ c.count) (handed : c.Handed n) : c.Wrote n := by
  obtain ⟨⟨n, text⟩, item, rfl⟩ := List.mem_map.mp handed
  obtain ⟨front, back, items⟩ := List.append_of_mem item
  cases named : c.root.isEmpty with
  | true =>
    rw [count, FileTree.writeAll, named, if_pos rfl, items] at all
    simp at all
  | false =>
    refine ⟨named, front, text, back, items, ?_⟩
    rw [count, FileTree.writeAll_eq named, items, List.foldl_append, List.foldl_cons] at all
    rw [FileTree.writeAll_eq named]
    have before : (front.foldl (FileTree.writeNext c.root tracesDirectory) (0, c.files)).1 ≤
        0 + front.length := FileTree.foldl_writeNext_count_le _ front
    generalize front.foldl (FileTree.writeNext c.root tracesDirectory) (0, c.files) = done at *
    cases written : done.2.write (c.path n) text with
    | ok t => exact ⟨t, rfl⟩
    | error fault =>
      -- then the writer counts one text less
      rw [path] at written
      rw [FileTree.writeNext, written] at all
      have behind := Nat.le_trans all (FileTree.foldl_writeNext_count_le done back)
      simp only [List.length_append, List.length_cons] at behind
      omega

end WriterCall

/-! ## Downloads at work -/

/-- A download of traces. -/
structure TraceRun where
  /-- What it waits for. -/
  phase : DownloadPhase
  /-- How many texts of its window the writer wrote, once it is through with them. -/
  written : Option Nat := none

/-- A store, the files, and the downloads of traces. -/
structure TraceDump (σ : Type) where
  store : σ
  files : FileTree := {}
  /-- The downloads that were ordered, in order. -/
  runs : List TraceRun := []
  /-- The calls of the writer, in order. -/
  calls : List WriterCall := []

variable {σ : Type} [Backend σ] [LawfulBackend σ]

open LawfulBackend

/-- A step of those who order a download, of one download, of the writer, or of anyone else.  All
downloads keep the checkpoint, and they have their first block and their root in common. -/
inductive DumpStep (first : UInt64) (root : String) (d : TraceDump σ) : TraceDump σ → Prop
  /-- A download begins. -/
  | begin (order : DownloadOrder) (keeps : order.useCheckpoint = true)
      (start : order.first = first) (below : order.root = root)
      (bounded : order.last < 0xFFFFFFFFFFFFFFFF) :
      DumpStep first root d { d with
        store := (DownloadPhase.start .traces order d.store).2
        runs := d.runs ++ [⟨(DownloadPhase.start .traces order d.store).1, none⟩] }
  /-- A download gets the slots of its window, one per number, or none. -/
  | window {run : DownloadRun} {last : UInt64} {before behind : List TraceRun}
      (on : d.runs = before ++ ⟨.askWindow run last, none⟩ :: behind)
      (answer : Except CrawlFault (List (Option String)))
      (slots : ∀ texts, answer = .ok texts → texts.length = (Window.numbers run.next last).length) :
      DumpStep first root d { d with
        runs := before ++ ⟨(DownloadPhase.askWindow run last).onTexts answer, none⟩ :: behind }
  /-- The writer writes the texts of a window. -/
  | write {run : DownloadRun} {last : UInt64} {window : Harvest} {before behind : List TraceRun}
      (on : d.runs = before ++ ⟨.askWritten run last window, none⟩ :: behind) :
      DumpStep first root d { d with
        files := (d.files.writeAll run.order.root tracesDirectory window.items).2
        runs := before ++ ⟨.askWritten run last window,
          some (d.files.writeAll run.order.root tracesDirectory window.items).1⟩ :: behind
        calls := d.calls ++ [⟨d.files, run.order.root, window.items⟩] }
  /-- A download learns how many texts were written. -/
  | written {run : DownloadRun} {last : UInt64} {window : Harvest} {count : Nat}
      {before behind : List TraceRun}
      (on : d.runs = before ++ ⟨.askWritten run last window, some count⟩ :: behind) :
      DumpStep first root d { d with
        store := ((DownloadPhase.askWritten run last window).onWritten (.ok count) d.store).2
        runs := before ++
          ⟨((DownloadPhase.askWritten run last window).onWritten (.ok count) d.store).1, none⟩
            :: behind }
  /-- A download does not learn it. -/
  | lost {run : DownloadRun} {last : UInt64} {window : Harvest} {told : Option Nat}
      {before behind : List TraceRun}
      (on : d.runs = before ++ ⟨.askWritten run last window, told⟩ :: behind) (fault : CrawlFault) :
      DumpStep first root d { d with
        store := ((DownloadPhase.askWritten run last window).onWritten (.error fault) d.store).2
        runs := before ++
          ⟨((DownloadPhase.askWritten run last window).onWritten (.error fault) d.store).1, none⟩
            :: behind }
  /-- Anything else happens that leaves the checkpoint of traces alone.  Files and writes to the
  store may begin or cease to fail. -/
  | other {store : σ} (files : FileTree)
      (checkpoint : (view store).checkpoint? .trace = (view d.store).checkpoint? .trace) :
      DumpStep first root d { d with store := store, files := files }

/-- What a store without a checkpoint of traces becomes. -/
inductive DumpReachable (first : UInt64) (root : String) : TraceDump σ → Prop
  | fresh {store : σ} (files : FileTree) (empty : (view store).checkpoint? .trace = none) :
      DumpReachable first root ⟨store, files, [], []⟩
  | step {d e : TraceDump σ} (reached : DumpReachable first root d)
      (step : DumpStep first root d e) : DumpReachable first root e

/-! ## Steps on the store -/

/-- The block that a download would save as the checkpoint now. -/
def DownloadRun.reach (r : DownloadRun) : UInt64 := r.firstFailed.getD r.next

namespace DownloadPhase

/-- The download that a phase is of, unless it is over. -/
def run? : DownloadPhase → Option DownloadRun
  | askWindow run _ | askWritten run _ _ => some run
  | ended _ | broken => none

/-- The phase after a step that ended like this. -/
def ofResult : Except Halt DownloadRun → DownloadPhase
  | .ok run => ofRun run
  | .error (.fault fault) => .ended (.error fault)
  | .error .overflow => .broken

theorem run?_ofResult_error (halt : Halt) : (ofResult (.error halt)).run? = none := by
  cases halt <;> rfl

omit [Backend σ] [LawfulBackend σ] in
theorem ofStep_eq (step : Checked σ DownloadRun) (s : σ) :
    ofStep step s = (ofResult (step.on s).1, (step.on s).2) := by
  simp only [ofStep, bind, StateT.bind, Effect.on, ExceptT.run]
  obtain ⟨r, s'⟩ := step s
  rcases r with (fault | _) | run <;> rfl

/-- The texts of a window are harvested, or the download breaks off. -/
theorem onTexts_cases (run : DownloadRun) (last : UInt64) (texts : List (Option String)) :
    (askWindow run last).onTexts (.ok texts) =
        askWritten run last (Harvest.ofTexts run.next texts) ∨
      (askWindow run last).onTexts (.ok texts) = broken := by
  rw [onTexts]
  split
  case isTrue => exact .inl rfl
  case isFalse => exact .inr rfl

/-- The first block of a download that keeps the checkpoint: the checkpoint, or the block that it
was ordered to start at where that is higher. -/
def firstBlock (order : DownloadOrder) (v : View) : UInt64 :=
  max ((v.checkpoint? .trace).getD order.first) order.first

/-- The first block of a download. -/
def startBlock (kind : DownloadKind) (order : DownloadOrder) (v : View) : UInt64 :=
  if DownloadRun.keepsCheckpoint kind order then firstBlock order v else order.first

omit [LawfulBackend σ] in
/-- A download only looks the checkpoint up before it asks for its first window. -/
theorem start_of_lookup {v : View} {s : σ} (kind : DownloadKind) (order : DownloadOrder)
    (found : (Backend.getCheckpoint .trace).on s = (.ok (v.checkpoint? .trace), s)) :
    start kind order s =
      (ofRun ⟨kind, order, startBlock kind order v, { nextBlock := startBlock kind order v }, none⟩,
        s) := by
  rw [start, ofStep_eq, Effect.on_checked, DownloadRun.start, startBlock]
  by_cases kept : DownloadRun.keepsCheckpoint kind order
  · rw [if_pos kept, if_pos kept, Effect.on_bind_ok found]
    rfl
  · have same : max order.first order.first = order.first := if_pos (UInt64.le_refl _)
    rw [if_neg kept, if_neg kept]
    exact congrArg (fun next => (ofRun ⟨kind, order, next, { nextBlock := next }, none⟩, s)) same

theorem start_eq (kind : DownloadKind) (order : DownloadOrder) (s : σ) :
    start kind order s =
      (ofRun ⟨kind, order, startBlock kind order (view s),
        { nextBlock := startBlock kind order (view s) }, none⟩, s) :=
  start_of_lookup kind order (getCheckpoint_on s .trace)

theorem start_traces {order : DownloadOrder} (keeps : order.useCheckpoint = true) (s : σ) :
    start .traces order s =
      (ofRun ⟨.traces, order, firstBlock order (view s),
        { nextBlock := firstBlock order (view s) }, none⟩, s) := by
  have kept : DownloadRun.keepsCheckpoint .traces order = true := by
    rw [DownloadRun.keepsCheckpoint, keeps]
    rfl
  rw [start_eq, startBlock, if_pos kept]

end DownloadPhase

/-- A download behind a window that was written. -/
def DownloadRun.absorbed (r : DownloadRun) (last : UInt64) (window : Harvest) (written : Nat) :
    DownloadRun where
  kind := r.kind
  order := r.order
  next := last + 1
  report := {
    windows := r.report.windows + 1
    written := r.report.written + written
    failed := r.report.failed + window.failed.length
    nextBlock := last + 1 }
  firstFailed := r.firstFailed.or window.failed.min?

section Absorbing

variable {r : DownloadRun} {last : UInt64} {window : Harvest} {written : Nat} {s : σ}

omit [LawfulBackend σ]

/-- Behind the greatest number there is no window. -/
theorem DownloadRun.absorb_of_greatest (behind : last = Window.greatest) :
    (r.absorb last window written).on s = (.error .overflow, s) :=
  Effect.on_outOfRange (not_not.mpr behind)

variable (countable : last ≠ Window.greatest)

include countable

/-- A download that keeps the checkpoint gets behind a window where the store saves it. -/
theorem DownloadRun.absorb_of_kept (kept : keepsCheckpoint r.kind r.order) :
    (r.absorb last window written).on s =
      match (Backend.saveCheckpoint .trace (r.absorbed last window written).reach).on s with
      | (.ok _, s') => (.ok (r.absorbed last window written), s')
      | (.error fault, s') => (.error (.fault fault), s') := by
  rw [absorb, Effect.on_inRange countable, if_pos kept]
  rcases saved : (Backend.saveCheckpoint .trace (r.absorbed last window written).reach).on s with
    ⟨fault | ⟨⟩, s'⟩
  · exact Effect.on_bind_error (Effect.on_checked_error saved)
  · exact Effect.on_bind_ok (Effect.on_checked_ok saved)

theorem DownloadRun.absorb_of_free (free : ¬ keepsCheckpoint r.kind r.order) :
    (r.absorb last window written).on s = (.ok (r.absorbed last window written), s) := by
  rw [absorb, Effect.on_inRange countable, if_neg free]
  rfl

end Absorbing

/-- A download that has its window written saves the first block that failed, or the one behind the
window, where there is one and the store takes it. -/
theorem DownloadRun.absorb_on {r : DownloadRun} (traces : r.kind = .traces)
    (keeps : r.order.useCheckpoint = true) (last : UInt64) (window : Harvest) (count : Nat) (s : σ) :
    (∃ run s', (r.absorb last window count).on s = (.ok run, s') ∧ run.kind = r.kind ∧
      run.order = r.order ∧ run.reach = (r.firstFailed.or window.failed.min?).getD (last + 1) ∧
      view s' = (view s).setCheckpoint .trace (raised s .trace run.reach)) ∨
    ∃ halt, (r.absorb last window count).on s = (.error halt, s) := by
  by_cases countable : last = Window.greatest
  case pos => exact .inr ⟨.overflow, absorb_of_greatest countable⟩
  have kept : keepsCheckpoint r.kind r.order = true := by
    rw [keepsCheckpoint, traces, keeps]
    rfl
  rw [absorb_of_kept countable kept]
  rcases saveCheckpoint_on s .trace (r.absorbed last window count).reach with
    ⟨s', saved, rows, _⟩ | ⟨_, reason, fails⟩
  · rw [saved]
    exact .inl ⟨_, s', rfl, rfl, rfl, rfl, rows⟩
  · rw [fails]
    exact .inr ⟨_, rfl⟩

/-- Every number of a window is among its texts or among its failures, and no other number is
among its failures. -/
structure Harvest.Covers (window : Harvest) (first last : UInt64) : Prop where
  complete : ∀ n, first ≤ n → n ≤ last → n ∈ window.items.map (·.1) ∨ n ∈ window.failed
  inside : ∀ n ∈ window.failed, n ≤ last

theorem Harvest.covers_ofTexts {first last : UInt64} {texts : List (Option String)}
    (slots : texts.length = (Window.numbers first last).length) :
    (Harvest.ofTexts first texts).Covers first last := by
  rw [Window.numbers, List.length_map, List.length_range] at slots
  constructor
  case complete =>
    intro n above below
    obtain ⟨i, hi, rfl⟩ := List.mem_map.mp (Window.mem_numbers.mpr ⟨above, below⟩)
    have within : i < texts.length := slots ▸ List.mem_range.mp hi
    have entry : (texts[i], i) ∈ texts.zipIdx :=
      List.mem_zipIdx_iff_getElem?.mpr (List.getElem?_eq_getElem within)
    cases text : texts[i] with
    | some t =>
      rw [text] at entry
      exact .inl (List.mem_map.mpr
        ⟨_, List.mem_filterMap.mpr ⟨_, List.mem_map_of_mem entry, rfl⟩, rfl⟩)
    | none =>
      rw [text] at entry
      exact .inr (List.mem_map.mpr
        ⟨_, List.mem_filter.mpr ⟨List.mem_map_of_mem entry, rfl⟩, rfl⟩)
  case inside =>
    intro n failed
    obtain ⟨e, he, rfl⟩ := List.mem_map.mp failed
    obtain ⟨⟨text, i⟩, slot, rfl⟩ := List.mem_map.mp (List.mem_filter.mp he).1
    have within := List.snd_lt_of_mem_zipIdx slot
    have number : first + UInt64.ofNat i ∈ Window.numbers first last :=
      List.mem_map.mpr ⟨i, List.mem_range.mpr (slots ▸ within), rfl⟩
    exact (Window.mem_numbers.mp number).2

/-! ## The invariant -/

/-- The writer was handed the texts of all blocks from `first` up to a bound. -/
def HandedBelow (root : String) (calls : List WriterCall) (first bound : UInt64) : Prop :=
  ∀ n, first ≤ n → n < bound → ∃ c ∈ calls, c.root = root ∧ c.Handed n

/-- A download keeps the checkpoint, and every block below the one that it would save was handed to
the writer.  So were those of its window that came, once the writer is through with them. -/
structure TraceRun.Sound (first : UInt64) (root : String) (calls : List WriterCall) (t : TraceRun) :
    Prop where
  own : ∀ run, t.phase.run? = some run →
    run.kind = .traces ∧ run.order.useCheckpoint = true ∧ run.order.root = root
  reach : ∀ run, t.phase.run? = some run → HandedBelow root calls first run.reach
  window : ∀ run last window, t.phase = .askWritten run last window → window.Covers run.next last
  written : ∀ run last window, t.phase = .askWritten run last window → t.written.isSome →
    ∀ n ∈ window.items.map (·.1), ∃ c ∈ calls, c.root = root ∧ c.Handed n

/-- Every block below the checkpoint was handed to the writer, and every download is sound. -/
structure Dumped (first : UInt64) (root : String) (d : TraceDump σ) : Prop where
  checkpoint : ∀ c, (view d.store).checkpoint? .trace = some c → HandedBelow root d.calls first c
  runs : ∀ t ∈ d.runs, t.Sound first root d.calls

variable {first : UInt64} {root : String} {calls : List WriterCall} {d e : TraceDump σ}

theorem HandedBelow.mono {bound : UInt64} {more : List WriterCall}
    (h : HandedBelow root calls first bound) (kept : calls ⊆ more) :
    HandedBelow root more first bound := by
  intro n above below
  obtain ⟨c, call, handed⟩ := h n above below
  exact ⟨c, kept call, handed⟩

/-- Below the first failure of a window that the writer is through with, and below the window where
nothing failed, every block was handed over. -/
theorem HandedBelow.through {next last : UInt64} {window : Harvest}
    (h : HandedBelow root calls first next) (covers : window.Covers next last)
    (handed : ∀ n ∈ window.items.map (·.1), ∃ c ∈ calls, c.root = root ∧ c.Handed n) :
    HandedBelow root calls first (window.failed.min?.getD (last + 1)) := by
  intro n above below
  by_cases early : n < next
  · exact h n above early
  · have inside : n ≤ last := by
      cases least : window.failed.min? with
      | some f =>
        rw [least, Option.getD_some] at below
        exact UInt64.le_trans (UInt64.le_of_lt below) (covers.inside f (List.min?_mem least))
      | none =>
        rw [least, Option.getD_none, UInt64.lt_iff_toNat_lt, UInt64.toNat_add,
          UInt64.toNat_one] at below
        have bound := last.toNat_lt
        rw [UInt64.le_iff_toNat_le]
        omega
    rcases covers.complete n (UInt64.not_lt.mp early) inside with item | failed
    · exact handed n item
    · -- then the bound would be this number or below
      cases least : window.failed.min? with
      | none => simp [List.min?_eq_none_iff.mp least] at failed
      | some f =>
        rw [least, Option.getD_some] at below
        exact absurd below (UInt64.not_lt.mpr ((List.min?_eq_some_iff.mp least).2 n failed))

namespace TraceRun.Sound

theorem mono {t : TraceRun} {more : List WriterCall} (h : t.Sound first root calls)
    (kept : calls ⊆ more) : t.Sound first root more where
  own := h.own
  reach run on := (h.reach run on).mono kept
  window := h.window
  written run last window on told n item := by
    obtain ⟨c, call, handed⟩ := h.written run last window on told n item
    exact ⟨c, kept call, handed⟩

/-- A download that is over, or has broken off, promises nothing. -/
theorem stopped {t : TraceRun} (none : t.phase.run? = none) : t.Sound first root calls := by
  have goesOn {run : DownloadRun} (on : t.phase.run? = some run) : False := by
    cases none.symm.trans on
  have asks {run : DownloadRun} {last : UInt64} {window : Harvest}
      (on : t.phase = .askWritten run last window) : False := goesOn (congrArg DownloadPhase.run? on)
  exact ⟨fun _ on => (goesOn on).elim, fun _ on => (goesOn on).elim, fun _ _ _ on => (asks on).elim,
    fun _ _ _ on => (asks on).elim⟩

/-- A download between two windows asks for the next one, or is over. -/
theorem ofRun {run : DownloadRun} (traces : run.kind = .traces)
    (keeps : run.order.useCheckpoint = true) (below : run.order.root = root)
    (reach : HandedBelow root calls first run.reach) :
    TraceRun.Sound first root calls ⟨.ofRun run, none⟩ := by
  rw [DownloadPhase.ofRun]
  split
  case isTrue => exact .stopped rfl
  case isFalse =>
    refine ⟨fun r on => ?_, fun r on => ?_, fun _ _ _ on => (nomatch on), fun _ _ _ on => (nomatch on)⟩
    · cases on
      exact ⟨traces, keeps, below⟩
    · cases on
      exact reach

end TraceRun.Sound

namespace Dumped

/-- One download gets on, and the others stay sound as more is handed over. -/
theorem replace (h : Dumped first root d) {before behind : List TraceRun} {t new : TraceRun}
    (on : d.runs = before ++ t :: behind) (runs : e.runs = before ++ new :: behind)
    (kept : d.calls ⊆ e.calls) (sound : new.Sound first root e.calls)
    (checkpoint : ∀ c, (view e.store).checkpoint? .trace = some c →
      HandedBelow root e.calls first c) : Dumped first root e where
  checkpoint := checkpoint
  runs := by
    intro r hr
    rw [runs, List.mem_append, List.mem_cons] at hr
    have old {r : TraceRun} (there : r ∈ before ∨ r ∈ behind) : r.Sound first root e.calls := by
      refine (h.runs r ?_).mono kept
      rw [on, List.mem_append, List.mem_cons]
      exact there.imp_right .inr
    rcases hr with first | rfl | last
    · exact old (.inl first)
    · exact sound
    · exact old (.inr last)

theorem step (h : Dumped first root d) (step : DumpStep first root d e) : Dumped first root e := by
  have sound {before behind : List TraceRun} {t : TraceRun} (on : d.runs = before ++ t :: behind) :
      t.Sound first root d.calls := by
    refine h.runs t ?_
    rw [on]
    exact List.mem_append_right _ List.mem_cons_self
  cases step with
  | begin order keeps start below bounded =>
    rw [DownloadPhase.start_traces keeps]
    refine ⟨h.checkpoint, fun t ht => ?_⟩
    rcases List.mem_append.mp ht with old | new
    · exact h.runs t old
    · rw [List.mem_singleton.mp new]
      refine .ofRun rfl keeps below fun n above under => ?_
      rw [DownloadRun.reach, Option.getD_none, DownloadPhase.firstBlock, start] at under
      have under : n < ((view d.store).checkpoint? .trace).getD first := by
        simp only [max] at under
        split at under
        · exact absurd above (UInt64.not_le.mpr under)
        · exact under
      cases hc : (view d.store).checkpoint? .trace with
      | some c =>
        rw [hc] at under
        exact h.checkpoint c hc n above under
      | none =>
        rw [hc] at under
        exact absurd above (UInt64.not_le.mpr under)
  | @window run last before behind on answer slots =>
    refine h.replace on rfl (List.Subset.refl _) ?_ h.checkpoint
    cases answer with
    | error fault => exact .stopped rfl
    | ok texts =>
      rcases DownloadPhase.onTexts_cases run last texts with harvested | broken
      · rw [harvested]
        refine ⟨(sound on).own, (sound on).reach, ?_, fun _ _ _ _ told => (nomatch told)⟩
        intro _ _ _ asks
        cases asks
        exact Harvest.covers_ofTexts (slots texts rfl)
      · rw [broken]
        exact .stopped rfl
  | @write run last window before behind on =>
    have kept : d.calls ⊆ d.calls ++ [⟨d.files, run.order.root, window.items⟩] :=
      List.subset_append_left _ _
    refine h.replace on rfl kept ?_ fun c hc => (h.checkpoint c hc).mono kept
    have before := (sound on).mono kept
    refine ⟨before.own, before.reach, ?_, ?_⟩
    · intro _ _ _ asks
      cases asks
      exact (sound on).window run last window rfl
    · intro _ _ _ asks _ n item
      cases asks
      obtain ⟨_, _, below⟩ := (sound on).own run rfl
      exact ⟨_, List.mem_concat_self, below, item⟩
  | @written run last window count before behind on =>
    obtain ⟨own, reach, covers, handed⟩ := sound on
    obtain ⟨traces, keeps, below⟩ := own run rfl
    have saves : HandedBelow root d.calls first
        ((run.firstFailed.or window.failed.min?).getD (last + 1)) := by
      have before := reach run rfl
      rw [DownloadRun.reach] at before
      cases failed : run.firstFailed with
      | some f =>
        rw [failed] at before
        exact before
      | none =>
        rw [failed] at before
        exact before.through (covers run last window rfl) (handed run last window rfl rfl)
    have absorbed : (DownloadPhase.askWritten run last window).onWritten (.ok count) d.store = _ :=
      DownloadPhase.ofStep_eq (run.absorb last window count) d.store
    rw [absorbed]
    rcases DownloadRun.absorb_on traces keeps last window count d.store with
      ⟨r, s', saved, kind, order, reached, rows⟩ | ⟨halt, fails⟩
    · rw [saved]
      refine h.replace on rfl (List.Subset.refl _) ?_ ?_
      · exact .ofRun (kind.trans traces) (order ▸ keeps) (order ▸ below) (reached ▸ saves)
      · -- the checkpoint is what was saved, or the one that stood there before
        intro c hc
        rw [rows] at hc
        cases hc
        rcases raised_eq d.store .trace r.reach with raised | stands
        · rw [raised, reached]
          exact saves
        · exact h.checkpoint _ stands
    · rw [fails]
      exact h.replace on rfl (List.Subset.refl _) (.stopped (DownloadPhase.run?_ofResult_error halt))
        h.checkpoint
  | @lost run last window told before behind on fault =>
    exact h.replace on rfl (List.Subset.refl _) (.stopped rfl) h.checkpoint
  | other files checkpoint =>
    exact ⟨fun c hc => h.checkpoint c (checkpoint ▸ hc), h.runs⟩

end Dumped

theorem DumpReachable.dumped (reached : DumpReachable first root d) : Dumped first root d := by
  induction reached with
  | fresh files empty =>
    refine ⟨fun c hc => ?_, fun _ there => absurd there List.not_mem_nil⟩
    rw [empty] at hc
    cases hc
  | step _ step ih => exact ih.step step

/-! ## What is below the checkpoint -/

/-- Below the checkpoint of traces the writer was handed the text of every block from `first` on.
Where each of its calls counts as many texts as it was handed, it wrote all of their files. -/
theorem traces_below_checkpoint_handed_over (reached : DumpReachable first root d) {c : UInt64}
    (hc : (view d.store).checkpoint? .trace = some c) :
    (∀ n, first ≤ n → n < c → ∃ call ∈ d.calls, call.root = root ∧ call.Handed n) ∧
    ((∀ call ∈ d.calls, call.root = root → call.count = call.items.length) →
      ∀ n, first ≤ n → n < c → ∃ call ∈ d.calls, call.root = root ∧ call.Wrote n ∧
        (call.left.read? (FileTree.blockPath root tracesDirectory n)).isSome) := by
  have handed := reached.dumped.checkpoint c hc
  refine ⟨handed, fun whole n above below => ?_⟩
  obtain ⟨call, made, rfl, was_handed⟩ := handed n above below
  have wrote := WriterCall.wrote_of_count (Nat.le_of_eq (whole call made rfl).symm) was_handed
  exact ⟨call, made, rfl, wrote, wrote.isSome_read?⟩

namespace ReadOnlyFile

/-- Three blocks in one window. -/
def order : DownloadOrder := ⟨0, 2, 10, "/dump", true⟩

/-- The window, where every fetch went well. -/
def harvest : Harvest := Harvest.ofTexts 0 [some "[]", some "[]", some "[]"]

/-- A tree where the file of the block in the middle cannot be written. -/
def files : FileTree := { broken := ["/dump/traceBlockByNumber/1.json"] }

/-- The checkpoint is behind the window, whatever the writer could write. -/
theorem run (files : FileTree) : ∃ d : TraceDump MemoryStore, DumpReachable 0 "/dump" d ∧
    (view d.store).checkpoint? .trace = some 3 ∧ d.calls = [⟨files, "/dump", harvest.items⟩] ∧
    d.files = (files.writeAll "/dump" tracesDirectory harvest.items).2 := by
  have fresh : DumpReachable (σ := MemoryStore) 0 "/dump" ⟨{}, files, [], []⟩ := .fresh files rfl
  let run : DownloadRun := ⟨.traces, order, 0, { nextBlock := 0 }, none⟩
  have started : DownloadPhase.start .traces order ({} : MemoryStore) = (.askWindow run 2, {}) := by
    rw [DownloadPhase.start_traces rfl,
      show DownloadPhase.firstBlock order (view ({} : MemoryStore)) = 0 from rfl]
    rfl
  have begun := fresh.step (.begin order rfl rfl rfl (by decide))
  simp only [started] at begun
  have fetched := begun.step (.window
    (show _ = [] ++ TraceRun.mk (.askWindow run 2) none :: [] from rfl)
    (.ok [some "[]", some "[]", some "[]"]) (by
      rintro _ ⟨⟩
      rfl))
  have written := fetched.step (.write
    (show _ = [] ++ TraceRun.mk (.askWritten run 2 harvest) none :: [] from rfl))
  have told := written.step (.written
    (show _ = [] ++ TraceRun.mk (.askWritten run 2 harvest) (some _) :: [] from rfl))
  exact ⟨_, told, rfl, rfl, rfl⟩

end ReadOnlyFile

/-- Where all files can be written, that of the last block is. -/
theorem traces_below_checkpoint_handed_over_of_three :
    ∃ d : TraceDump MemoryStore, DumpReachable 0 "/dump" d ∧
      (view d.store).checkpoint? .trace = some 3 ∧
      ∃ call ∈ d.calls, call.root = "/dump" ∧ call.Wrote 2 ∧
        (call.left.read? (FileTree.blockPath "/dump" tracesDirectory 2)).isSome := by
  obtain ⟨d, reached, checkpoint, calls, _⟩ := ReadOnlyFile.run {}
  refine ⟨d, reached, checkpoint, ?_⟩
  refine (traces_below_checkpoint_handed_over reached checkpoint).2 ?_ 2 (by decide) (by decide)
  intro call made _
  rw [calls, List.mem_singleton] at made
  rw [made]
  decide +kernel

/-- The checkpoint passes a block whose file could not be written. -/
theorem traces_below_checkpoint_missing :
    ∃ d : TraceDump MemoryStore, DumpReachable 0 "/dump" d ∧
      (view d.store).checkpoint? .trace = some 3 ∧ (∀ call ∈ d.calls, ¬ call.Wrote 1) ∧
      d.files.read? (FileTree.blockPath "/dump" tracesDirectory 1) = none := by
  obtain ⟨d, reached, checkpoint, calls, left⟩ := ReadOnlyFile.run ReadOnlyFile.files
  have missing : (ReadOnlyFile.files.writeAll "/dump" tracesDirectory
      ReadOnlyFile.harvest.items).2.read? (FileTree.blockPath "/dump" tracesDirectory 1) = none := by
    decide +kernel
  refine ⟨d, reached, checkpoint, fun call made wrote => ?_, by rw [left, missing]⟩
  have there := wrote.isSome_read?
  rw [calls, List.mem_singleton] at made
  rw [made, WriterCall.left, WriterCall.path, missing] at there
  cases there

end ChainIndex
