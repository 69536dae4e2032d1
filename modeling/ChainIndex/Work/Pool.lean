import ChainIndex.Work.Headcount

/-!
# Pools of workers

The workers of a pool take items from one bounded queue.  An item is a job or an
exit.  To grow, a pool gives out new workers.  To shrink, it queues one exit for each
worker that has to go, and the worker that picks it up ends there, after the job it
was on.

A caller whose items do not fit waits among the senders.  Whenever an item leaves
the queue, the first sender puts one in, and stands at the end of the line if it has
more.

Every function is one step.  A worker is *unstarted* from when it is given out until
its first step, then *idle* or *busy*.  Idle workers take items in the order in which
they became idle.

* `setWorkers` is ignored while the live workers are not as many as the last accepted
  call asked for.
* `shutdown` is never ignored.  Exits already on their way cover the live workers
  beyond the target, so it adds one exit for each worker of the target.
-/

namespace ChainIndex

/-- What a worker takes from the queue. -/
inductive PoolItem (J : Type) where
  /-- A job. -/
  | job (j : J)
  /-- The end of one worker. -/
  | exit
deriving DecidableEq, Repr, Inhabited

/-- A caller that waits for room in the queue. -/
structure PoolSender (κ J : Type) where
  /-- The caller. -/
  caller : κ
  /-- The items it still has to put in, in order. -/
  items : List (PoolItem J)
deriving Repr, Inhabited

/-- A pool of workers. -/
structure Pool (κ J : Type) where
  /-- The most items of the queue. -/
  capacity : Nat := 1
  /-- The items, the next one first. -/
  queue : List (PoolItem J) := []
  /-- The live workers. -/
  headcount : Headcount := {}
  /-- The workers that the last accepted call asked for. -/
  target : UInt16 := 0
  /-- The workers given out. -/
  issued : Nat := 0
  /-- The workers that have not started. -/
  unstarted : List Nat := []
  /-- The workers without a job, the next one first. -/
  idle : List Nat := []
  /-- The workers with their jobs. -/
  busy : List (Nat × J) := []
  /-- The callers that wait for room, the next one first. -/
  senders : List (PoolSender κ J) := []
deriving Repr, Inhabited

namespace Pool

variable {κ J : Type}

/-- A pool without workers.  Its queue has room for one item at least. -/
def ofCapacity (capacity : Nat) : Pool κ J := { capacity := max capacity 1 }

/-- The live workers. -/
def workers (p : Pool κ J) : UInt16 := p.headcount.value

/-! ## Putting items in -/

/-- The first sender puts an item in, where there is room.  Also the caller, if that
was its last item. -/
def letIn? (p : Pool κ J) : Option (Option κ × Pool κ J) :=
  if p.capacity ≤ p.queue.length then none
  else
    match p.senders with
    | [] => none
    | ⟨caller, []⟩ :: rest => some (some caller, { p with senders := rest })
    | ⟨caller, [item]⟩ :: rest =>
      some (some caller, { p with queue := p.queue ++ [item], senders := rest })
    | ⟨caller, item :: items⟩ :: rest =>
      some (none, { p with queue := p.queue ++ [item], senders := rest ++ [PoolSender.mk caller items] })

/-- Senders put items in while there is room.  Also the callers that are done. -/
def letInAll : Nat → Pool κ J → List κ × Pool κ J
  | 0, p => ([], p)
  | fuel + 1, p =>
    match p.letIn? with
    | none => ([], p)
    | some (done, p) =>
      let (more, p) := letInAll fuel p
      (done.toList ++ more, p)

/-- The items that wait for room, and one more for each sender. -/
def backlog (p : Pool κ J) : Nat :=
  p.senders.foldr (fun s count => s.items.length + 1 + count) 0

/-- A caller that has items to put in stands at the end of the line. -/
def lineUp (p : Pool κ J) (caller : κ) (items : List (PoolItem J)) : Pool κ J :=
  if items.isEmpty then p else { p with senders := p.senders ++ [⟨caller, items⟩] }

/-- A caller puts items in, or waits.  Also the callers that are done. -/
def send (p : Pool κ J) (caller : κ) (items : List (PoolItem J)) : List κ × Pool κ J :=
  if items.isEmpty then ([caller], p)
  else
    let p := p.lineUp caller items
    p.letInAll p.backlog

/-- A caller no longer waits. -/
def cancel [BEq κ] (p : Pool κ J) (caller : κ) : Pool κ J :=
  { p with senders := p.senders.filter fun s => s.caller != caller }

/-- A caller waits for room. -/
def isSending [BEq κ] (p : Pool κ J) (caller : κ) : Bool := p.senders.any fun s => s.caller == caller

/-! ## Scaling -/

/-- A scale call that asks for some workers.  Also the workers given out, and the
exits to put in. -/
def setWorkers (p : Pool κ J) (count : UInt16) : List Nat × Nat × Pool κ J :=
  if p.workers ≠ p.target then ([], 0, p)
  else
    let spawned := (List.range (count.toNat - p.workers.toNat)).map fun i => p.issued + 1 + i
    (spawned, p.workers.toNat - count.toNat,
      { p with
        target := count
        issued := p.issued + spawned.length
        unstarted := p.unstarted ++ spawned })

/-- A call that retires every worker.  Also the exits to put in. -/
def shutdown (p : Pool κ J) : Nat × Pool κ J := (p.target.toNat, { p with target := 0 })

/-! ## Workers -/

/-- A worker starts. -/
def start (p : Pool κ J) (worker : Nat) : Pool κ J :=
  if p.unstarted.contains worker then
    { p with
      unstarted := p.unstarted.erase worker
      headcount := p.headcount.increase
      idle := p.idle ++ [worker] }
  else p

/-- The idle worker whose turn it is takes the next item.  A job makes it busy.  With an
exit it is on its way out, and is counted until it leaves. -/
def take? (p : Pool κ J) (worker : Nat) : Option (PoolItem J × Pool κ J) :=
  match p.idle, p.queue with
  | first :: idle, item :: queue =>
    if first = worker then
      let p := { p with idle := idle, queue := queue }
      some (item, match item with
        | .job j => { p with busy := p.busy ++ [(worker, j)] }
        | .exit => p)
    else none
  | _, _ => none

/-- A worker that took an exit is no longer counted. -/
def leave (p : Pool κ J) : Pool κ J := { p with headcount := p.headcount.decrease }

/-- The idle worker whose turn it is takes the next item.  An exit ends it at once.  Also
the callers that could put in their last item thereby. -/
def pick? (p : Pool κ J) (worker : Nat) : Option (PoolItem J × List κ × Pool κ J) :=
  match p.take? worker with
  | none => none
  | some (item, p) =>
    let p := match item with
      | .job _ => p
      | .exit => p.leave
    let (done, p) := p.letInAll p.backlog
    some (item, done, p)

/-- The job that a worker is on. -/
def jobOf? (p : Pool κ J) (worker : Nat) : Option J :=
  (p.busy.find? fun b => b.1 = worker).map (·.2)

/-- A worker is done with its job. -/
def finish (p : Pool κ J) (worker : Nat) : Pool κ J :=
  if p.busy.any fun b => b.1 = worker then
    { p with busy := p.busy.filter fun b => b.1 ≠ worker, idle := p.idle ++ [worker] }
  else p

/-- A worker breaks off its job and is gone.  It is counted all the same. -/
def lose (p : Pool κ J) (worker : Nat) : Pool κ J :=
  { p with busy := p.busy.filter fun b => b.1 ≠ worker }

end Pool

end ChainIndex
