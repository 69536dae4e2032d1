import ChainIndex.Message
import ChainIndex.Work.Agenda
import ChainIndex.Work.RangeQueue

/-!
# A queue behind a gate

The drainer of this queue notes when it starts and when it ends a request, and needs
one permit for each request in between.  A request is acknowledged, unless it was
rejected.
-/

namespace ChainIndex

/-- What the drainer of a gate notes. -/
inductive GateNote where
  /-- It starts a request that has so many items left. -/
  | started (id : String) (drainer : Nat) (pending : Nat)
  /-- It ended a request. -/
  | ended (id : String) (numbers : List UInt64)
deriving Repr

/-- A queue whose drainer needs permits. -/
structure Gate where
  /-- The drainers that can run. -/
  agenda : Agenda Nat := {}
  /-- The queue. -/
  queue : RangeQueue Nat := {}
  /-- The permits left. -/
  permits : Nat := 0
  /-- What was noted, newest first. -/
  notes : List GateNote := []
  /-- The replies by request, newest first. -/
  replies : List (Nat × Reply) := []
deriving Inhabited

namespace Gate

/-- A reply to a request that waits for one. -/
def answer (g : Gate) (returns : Option Nat) (reply : Reply) : Gate :=
  match returns with
  | some place => { g with replies := (place, reply) :: g.replies }
  | none => g

/-- A drainer ends its request, which a permit allows. -/
def finish (g : Gate) (drainer : Nat) (r : RangeRequest Nat) : Gate :=
  let queue := r.numbers.foldl (fun q _ => q.onBarrier r.id Barrier.done) g.queue
  { g with
    queue := queue.complete drainer
    permits := g.permits - 1
    notes := .ended r.id r.numbers :: g.notes }.answer r.returns .ack

/-- A drainer runs until it needs a permit or a request. -/
def run (drainer : Nat) (g : Gate) : Gate :=
  match g.queue.current? drainer with
  | some r =>
    if g.permits = 0 then g
    else
      let g := g.finish drainer r
      { g with agenda := g.agenda.wakeFirst drainer }
  | none =>
    match g.queue.receive? drainer with
    | none => g
    | some (r, queue) =>
      { g with
        queue := queue
        notes := .started r.id drainer (queue.itemsLeft r.id) :: g.notes
        agenda := g.agenda.wakeFirst drainer }

/-- The drainers of a gate, one at a time. -/
def machine : Machine Gate Nat where
  agenda := agenda
  withAgenda a g := { g with agenda := a }
  run := run

/-- The drainers alive can run. -/
def wakeDrainers (g : Gate) : Gate := { g with agenda := g.agenda.wakeAll g.queue.drainers }

/-- A request arrives. -/
def enqueue (g : Gate) (r : RangeRequest Nat) : Gate :=
  match g.queue.accept? r with
  | none => g.answer r.returns (.rejected (RangeQueue.rejection r.id))
  | some (_, queue) => { g with queue := queue.send r.id }.wakeDrainers

/-- More permits. -/
def release (g : Gate) (permits : Nat) : Gate :=
  { g with permits := g.permits + permits }.wakeDrainers

end Gate

end ChainIndex
