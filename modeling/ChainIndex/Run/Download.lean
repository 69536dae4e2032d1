import ChainIndex.Files
import ChainIndex.Store.Basic
import ChainIndex.Window

/-!
# Download runs

A download run works through a range window by window.  It asks for the blocks of a
window, or for their traces, and has the texts of those that came written to files.
The others are skipped.

A run of traces may keep a checkpoint.  It then starts no lower than the checkpoint, and
after each window it raises the checkpoint to the block behind the window, or to
the first block of the run that failed.

Where the number behind a window is no word, the run breaks off.

A run is a value of `DownloadPhase`.  It says what the run waits for, and `onTexts`
and `onWritten` are how it goes on with the answer.
-/

namespace ChainIndex

/-- What is downloaded. -/
inductive DownloadKind where
  /-- The texts of blocks. -/
  | blocks
  /-- The texts of traces. -/
  | traces
deriving DecidableEq, Repr, Inhabited

namespace DownloadKind

/-- The identity of the request for a window of the run with a number. -/
def requestId (kind : DownloadKind) (run : Nat) (first last : UInt64) : String :=
  let title := match kind with
    | blocks => "download_blocks_"
    | traces => "download_traces_"
  title ++ toString run ++ "_" ++ toString first.toNat ++ "_" ++ toString last.toNat

/-- The command that asks for a window. -/
def fetchCommand (kind : DownloadKind) (run : Nat) (first last : UInt64) : Command :=
  match kind with
  | blocks => .getRange (kind.requestId run first last) first last
  | traces => .traceRange (kind.requestId run first last) first last

/-- The command that has texts written. -/
def writeCommand (kind : DownloadKind) (root : String) (items : List (UInt64 × String)) : Command :=
  match kind with
  | blocks => .writeBlockFiles root items
  | traces => .writeTraceFiles root items

end DownloadKind

/-- A window that was fetched. -/
structure Harvest where
  /-- The texts that came, each with its number. -/
  items : List (UInt64 × String) := []
  /-- The numbers without a text. -/
  failed : List UInt64 := []
deriving DecidableEq, Repr, Inhabited

/-- The harvest of a window that starts at `first`, from the texts in its slots. -/
def Harvest.ofTexts (first : UInt64) (texts : List (Option String)) : Harvest :=
  let numbered := texts.zipIdx.map fun (text, i) => (first + UInt64.ofNat i, text)
  { items := numbered.filterMap fun (number, text) => text.map fun t => (number, t)
    failed := (numbered.filter fun e => e.2.isNone).map (·.1) }

/-- A download run between two windows. -/
structure DownloadRun where
  /-- What is downloaded. -/
  kind : DownloadKind
  /-- What was ordered. -/
  order : DownloadOrder
  /-- The first block of the next window. -/
  next : UInt64
  /-- What was written so far. -/
  report : DownloadReport
  /-- The first block that failed. -/
  firstFailed : Option UInt64 := none
deriving DecidableEq, Repr, Inhabited

namespace DownloadRun

variable {σ : Type} [Backend σ]

/-- A run keeps the checkpoint of traces. -/
def keepsCheckpoint (kind : DownloadKind) (order : DownloadOrder) : Bool :=
  kind = .traces && order.useCheckpoint

/-- The start of a run. -/
def start (kind : DownloadKind) (order : DownloadOrder) : Action σ DownloadRun := do
  let checkpoint ← if keepsCheckpoint kind order then Backend.getCheckpoint .trace else pure none
  let next := max (checkpoint.getD order.first) order.first
  return { kind := kind, order := order, next := next, report := { nextBlock := next } }

/-- The last block of the next window. -/
def windowEnd (r : DownloadRun) : UInt64 := Window.last r.next r.order.batchSize r.order.last

/-- A run whose window, which ends at `last`, was written. -/
def absorb (r : DownloadRun) (last : UInt64) (window : Harvest) (written : Nat) :
    Checked σ DownloadRun := do
  Effect.inRange (last ≠ Window.greatest)
  let firstFailed := r.firstFailed.or window.failed.min?
  if keepsCheckpoint r.kind r.order then
    (Backend.saveCheckpoint .trace (firstFailed.getD (last + 1))).checked
  return { r with
    next := last + 1
    report := {
      windows := r.report.windows + 1
      written := r.report.written + written
      failed := r.report.failed + window.failed.length
      nextBlock := last + 1 }
    firstFailed := firstFailed }

end DownloadRun

/-- What a download run waits for. -/
inductive DownloadPhase where
  /-- The texts of its next window, which ends at `last`. -/
  | askWindow (run : DownloadRun) (last : UInt64)
  /-- That the texts of its window are written. -/
  | askWritten (run : DownloadRun) (last : UInt64) (window : Harvest)
  /-- Nothing.  The run is over. -/
  | ended (result : Except CrawlFault DownloadReport)
  /-- Nothing.  The run broke off, and nobody hears of it. -/
  | broken
deriving Inhabited

namespace DownloadPhase

variable {σ : Type} [Backend σ]

/-- The phase of a run between two windows. -/
def ofRun (r : DownloadRun) : DownloadPhase :=
  if r.order.last < r.next then ended (.ok r.report) else askWindow r r.windowEnd

/-- The phase after a step on the store. -/
def ofStep (step : Checked σ DownloadRun) : StateM σ DownloadPhase := do
  match ← step.run with
  | .ok run => return ofRun run
  | .error (.fault fault) => return .ended (.error fault)
  | .error .overflow => return .broken

/-- The start of a run. -/
def start (kind : DownloadKind) (order : DownloadOrder) : StateM σ DownloadPhase :=
  ofStep (DownloadRun.start kind order).checked

/-- A run that gets the harvest of its window. -/
def onWindow (phase : DownloadPhase) (answer : Except CrawlFault Harvest) : DownloadPhase :=
  match phase, answer with
  | askWindow run last, .ok window => askWritten run last window
  | askWindow _ _, .error fault => ended (.error fault)
  | other, _ => other

/-- A run that gets the texts in the slots of its window.  It breaks off where it cannot count
them. -/
def onTexts (phase : DownloadPhase) (answer : Except CrawlFault (List (Option String))) :
    DownloadPhase :=
  match phase, answer with
  | askWindow run last, .ok texts =>
    if Window.CanCount run.next texts.length then
      (askWindow run last).onWindow (.ok (Harvest.ofTexts run.next texts))
    else broken
  | askWindow _ _, .error fault => ended (.error fault)
  | other, _ => other

/-- A run whose files were written, so many of them. -/
def onWritten (phase : DownloadPhase) (answer : Except CrawlFault Nat) : StateM σ DownloadPhase :=
  match phase, answer with
  | askWritten run last window, .ok written => ofStep (run.absorb last window written)
  | askWritten _ _ _, .error fault => return ended (.error fault)
  | other, _ => return other

/-- The reply to the order of a run that is over. -/
def reply (result : Except CrawlFault DownloadReport) : Reply :=
  match result with
  | .ok report => .downloaded report
  | .error fault => .failed fault.message

end DownloadPhase

end ChainIndex
