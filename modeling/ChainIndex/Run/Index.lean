import ChainIndex.Batch
import ChainIndex.Window

/-!
# Index runs

An index run works through a range window by window.  It asks for the head, takes the
next window, asks for its blocks, stores them and moves the checkpoint.  It is over
once the next block is past the head or past the end that was ordered.

Within a window, issues are written first, then blocks, then transactions, and then
the checkpoint.  So a run that breaks off leaves a checkpoint below everything that
is not stored, and the next run does the window again.

* The checkpoint never passes a failed block: the run goes on at the first one.  Where
  this is the first block of the window, the run is over, and only the issues of
  failed results are stored.
* Where the first block of a window is stored with another hash, nothing is stored but
  the issue, and the run steps back.  The windows after that reach at least as far as
  the block that made it step back, until one such window is stored.

* Where a number is out of range, the run breaks off at once.  It may be the number behind a
  window, or the time from one block to the next.

A run is a value of `IndexPhase`.  It says what the run waits for, and `onHead` and
`onSlots` are how it goes on with the answer.
-/

namespace ChainIndex

/-- How blocks are indexed, apart from what an order says. -/
structure IndexPlan where
  /-- What is classified. -/
  options : ClassifyOptions
  /-- How far to step back. -/
  rewindDepth : UInt64
  /-- The alignment of the ends of windows. -/
  alignment : UInt64
deriving DecidableEq, Repr, Inhabited

/-- An index run between two windows. -/
structure IndexRun where
  /-- What was ordered. -/
  order : IndexOrder
  /-- The first block of the next window. -/
  next : UInt64
  /-- What was stored so far. -/
  report : BatchReport
  /-- The highest block that made the run step back and that no window has reached since. -/
  reorged : Option UInt64 := none
deriving DecidableEq, Repr, Inhabited

namespace IndexRun

variable {σ : Type} [Backend σ]

/-- The start of a run. -/
def start (order : IndexOrder) : Action σ IndexRun := do
  let checkpoint ← if order.useCheckpoint then Backend.getCheckpoint .index else pure none
  let next := checkpoint.getD order.first
  return { order := order, next := next, report := { nextBlock := next } }

/-- The last block to index.  Where the head is not known, the ordered end stands for it. -/
def lastBlock (order : IndexOrder) (head : HeadResult) : Except CrawlFault UInt64 :=
  match head.number, order.last with
  | some head, some last => .ok (min last head)
  | some head, none => .ok head
  | none, some last => .ok last
  | none, none => .error (.node (head.fault.getD (.decode "empty block number")))

/-- The last block of the next window, for a last block to index. -/
def windowEnd (plan : IndexPlan) (r : IndexRun) (last : UInt64) : UInt64 :=
  let aligned := Window.alignEnd r.next (Window.last r.next r.order.batchSize last) plan.alignment
  match r.reorged with
  | some block => min (max aligned block) last
  | none => aligned

/-- The first result of a window has no block: the run is over, and the issues of failed
results are stored. -/
def giveUp (first last : UInt64) (result : BlockResult) (results : List BlockResult) :
    Action σ IndexRun := do
  let _ ← Backend.saveIssues ((results.filter fun r => !r.isOk).map Batch.failureIssue)
  throw (.windowUnclassifiable first last ((result.fault.map NodeFault.message).getD "empty result"))

/-- A run that steps back because its next block is stored with another hash. -/
def stepBack (plan : IndexPlan) (r : IndexRun) (issue : Issue) : Action σ IndexRun := do
  let inserted ← Backend.saveIssues [issue]
  return { r with
    next := Window.subSaturating r.next plan.rewindDepth
    report := { r.report with issues := r.report.issues + inserted }
    reorged := some (max (r.reorged.getD r.next) r.next) }

/-- A run that stores its window, which ends at `last`.  The number behind the window has to be a
word, even where the run goes on at a failed block. -/
def storeWindow (plan : IndexPlan) (r : IndexRun) (last : UInt64) (results : List BlockResult) :
    Checked σ IndexRun := do
  let batch ← Batch.prepare plan.options results
  let inserted ← batch.persist.checked
  Effect.inRange (last ≠ Window.greatest)
  let next := batch.firstFailed.getD (last + 1)
  (Backend.saveCheckpoint .index next).checked
  let report := batch.tally r.report inserted
  return { r with
    next := next
    report := { report with windows := report.windows + 1, nextBlock := next }
    reorged := r.reorged.filter fun block => last < block }

/-- A run with the results of its window, which ends at `last`. -/
def absorb (plan : IndexPlan) (r : IndexRun) (last : UInt64) (results : List BlockResult) :
    Checked σ IndexRun := do
  match results with
  | [] => throw (.fault (.windowUnclassifiable r.next last "empty window"))
  | result :: _ =>
    match result.block, result.fault with
    | some block, none =>
      let issue ←
        if 0 < plan.rewindDepth && 0 < r.next then (Batch.leadingReorg? block).checked
        else pure none
      match issue with
      | some issue => (r.stepBack plan issue).checked
      | none => r.storeWindow plan last results
    | _, _ => (giveUp r.next last result results).checked

end IndexRun

/-- What an index run waits for. -/
inductive IndexPhase where
  /-- The number of the newest block. -/
  | askHead (run : IndexRun)
  /-- The blocks of its next window, which ends at `last`. -/
  | askWindow (run : IndexRun) (last : UInt64)
  /-- Nothing.  The run is over. -/
  | ended (result : Except CrawlFault BatchReport)
  /-- Nothing.  The run broke off, and nobody hears of it. -/
  | broken
deriving Inhabited

namespace IndexPhase

variable {σ : Type} [Backend σ]

/-- The phase after a step on the store. -/
def ofStep (step : Checked σ IndexRun) : StateM σ IndexPhase := do
  match ← step.run with
  | .ok run => return .askHead run
  | .error (.fault fault) => return .ended (.error fault)
  | .error .overflow => return .broken

/-- The start of a run. -/
def start (order : IndexOrder) : StateM σ IndexPhase := ofStep (IndexRun.start order).checked

/-- A run that gets the head. -/
def onHead (plan : IndexPlan) (phase : IndexPhase) (answer : Except CrawlFault HeadResult) : IndexPhase :=
  match phase with
  | askHead run =>
    match answer.bind (IndexRun.lastBlock run.order) with
    | .error fault => ended (.error fault)
    | .ok last => if last < run.next then ended (.ok run.report) else askWindow run (run.windowEnd plan last)
  | other => other

/-- A run that gets the results of its window. -/
def onWindow (plan : IndexPlan) (phase : IndexPhase) (answer : Except CrawlFault (List BlockResult)) :
    StateM σ IndexPhase :=
  match phase, answer with
  | askWindow run last, .ok results => ofStep (run.absorb plan last results)
  | askWindow _ _, .error fault => return ended (.error fault)
  | other, _ => return other

/-- The results of a window that starts at `first`, from the slots of its array. -/
def windowResults (first : UInt64) (slots : List (Option BlockResult)) : List BlockResult :=
  slots.zipIdx.map fun (slot, i) =>
    slot.getD ⟨first + UInt64.ofNat i, none, none, some (.transport "no result delivered"), 0⟩

/-- A run that gets the slots of its window.  It breaks off where it cannot count them. -/
def onSlots (plan : IndexPlan) (phase : IndexPhase)
    (answer : Except CrawlFault (List (Option BlockResult))) : StateM σ IndexPhase :=
  match phase, answer with
  | askWindow run last, .ok slots =>
    if Window.CanCount run.next slots.length then
      (askWindow run last).onWindow plan (.ok (windowResults run.next slots))
    else return broken
  | askWindow _ _, .error fault => return ended (.error fault)
  | other, _ => return other

/-- The reply to the order of a run that is over. -/
def reply (result : Except CrawlFault BatchReport) : Reply :=
  match result with
  | .ok report => .indexed report
  | .error fault => .failed fault.message

/-- A run that ended like this stops the whole crawler. -/
def stopsCrawler (result : Except CrawlFault BatchReport) : Bool :=
  match result with
  | .ok _ => false
  | .error fault => fault.isStorage

/-- The identity of the request for a window. -/
def requestId (first last : UInt64) : String :=
  "index_" ++ toString first.toNat ++ "_" ++ toString last.toNat

end IndexPhase

/-! ## The indexer -/

/-- The gate before index runs: it lets one in at a time, and none without workers. -/
structure Indexer (R : Type) where
  /-- The workers, of which only zero means something. -/
  workers : UInt16 := 0
  /-- The run that is active. -/
  run : Option R := none
deriving Repr, Inhabited

namespace Indexer

/-- The name of the indexer on the bus. -/
def serviceName : String := "BlockIndexer"

variable {R : Type}

/-- A run is active. -/
def isActive (i : Indexer R) : Bool := i.run.isSome

/-- Let a run in, or say why not. -/
def accept (i : Indexer R) (run : R) : Except String (Indexer R) :=
  if i.workers = 0 then .error (serviceName ++ " has no workers")
  else if i.isActive then .error "index is already running"
  else .ok { i with run := some run }

/-- The active run has ended. -/
def finish (i : Indexer R) : Indexer R := { i with run := none }

end Indexer

end ChainIndex
