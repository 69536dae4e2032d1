import ChainIndex.Work.Agenda
import ChainIndex.Work.Pool

/-!
# A pool at work

A bench is one pool whose jobs take some time and then leave a mark.  It runs its
workers one at a time, and one caller at a time scales the pool or puts jobs in.
-/

namespace ChainIndex

/-- A job that takes some time. -/
structure TimedJob where
  /-- The mark it leaves. -/
  mark : Nat
  /-- The time it takes, in milliseconds. -/
  delay : Nat := 0
deriving DecidableEq, Repr, Inhabited

/-- A pool of timed jobs. -/
structure Bench where
  /-- The workers that can run, and the clock. -/
  agenda : Agenda Nat := {}
  /-- The pool. -/
  pool : Pool Unit TimedJob
  /-- The marks left, each with its worker, newest first. -/
  marks : List (TimedJob × Nat) := []
deriving Inhabited

namespace Bench

/-- Some workers can run. -/
def wakeAll (b : Bench) (workers : List Nat) : Bench := { b with agenda := b.agenda.wakeAll workers }

/-- The idle worker whose turn it is can run, where there is an item for it. -/
def wakeIdle (b : Bench) : Bench :=
  if b.pool.queue.isEmpty then b else b.wakeAll b.pool.idle.head?.toList

/-- A worker leaves the mark of a job and is free again. -/
def complete (b : Bench) (worker : Nat) (job : TimedJob) : Bench :=
  { b with pool := b.pool.finish worker, marks := (job, worker) :: b.marks }

/-- A free worker takes an item if it is its turn. -/
def take (b : Bench) (worker : Nat) : Bench :=
  match b.pool.pick? worker with
  | none => b
  | some (item, _, pool) =>
    let b := { b with pool := pool }
    let b := b.wakeAll pool.idle.head?.toList
    match item with
    | .exit => b
    | .job job =>
      if job.delay = 0 then
        let b := b.complete worker job
        { b with agenda := b.agenda.wakeFirst worker }
      else { b with agenda := b.agenda.sleep job.delay worker }

/-- A worker runs until it has to wait. -/
def run (worker : Nat) (b : Bench) : Bench :=
  match b.pool.jobOf? worker with
  | some job => (b.complete worker job).take worker
  | none => { b with pool := b.pool.start worker }.take worker

/-- The workers of a bench, one at a time. -/
def machine : Machine Bench Nat where
  agenda := agenda
  withAgenda a b := { b with agenda := a }
  run := run

/-- Put items in, and whether all went in before the caller gave up. -/
def send (b : Bench) (items : List (PoolItem TimedJob)) : Bench × Bool :=
  let (_, pool) := b.pool.send () items
  let b := { b with pool := pool }.wakeIdle
  let (b, there) := machine.await (fun b => !b.pool.isSending ()) b
  ({ b with pool := b.pool.cancel () }, there)

/-- Scale the pool. -/
def setWorkers (b : Bench) (count : UInt16) : Bench × Bool :=
  let (spawned, exits, pool) := b.pool.setWorkers count
  let b := { b with pool := pool }.wakeAll spawned
  if exits = 0 then (b, true) else b.send (List.replicate exits .exit)

/-- Retire every worker. -/
def shutdown (b : Bench) : Bench × Bool :=
  let (exits, pool) := b.pool.shutdown
  let b := { b with pool := pool }
  if exits = 0 then (b, true) else b.send (List.replicate exits .exit)

/-- Put jobs in, one after the other, until one does not fit in time. -/
def submitAll (b : Bench) : List TimedJob → Bench × Bool
  | [] => (b, true)
  | job :: rest =>
    match b.send [.job job] with
    | (b, true) => b.submitAll rest
    | (b, false) => (b, false)

end Bench

end ChainIndex
