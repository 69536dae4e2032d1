import ChainIndex.SlotCache
import ChainIndex.Work.Pool
import ChainIndex.Work.RangeQueue

/-!
# Fanning a range out

A fan-out answers single questions and requests for many blocks with the workers of
one pool.  A single question goes to the pool at once.  A request goes through the
queue: its drainer allocates an array with one slot per number, puts one job per slot
into the pool, waits until every slot is done, and answers with the handle of the
array.

`Fanout.start?` is the drainer's first step for a request and `Fanout.complete?` its
last.  In between, each worker that has a result calls `Fanout.fill`, which writes the
slot and counts the request down.  A slot that cannot be written any more is dropped,
but counted down all the same.
-/

namespace ChainIndex

/-- What a worker of a fan-out does. -/
inductive FanJob (ι ρ : Type) where
  /-- It answers a question. -/
  | single (ask : ι) (returns : Option ρ)
  /-- It fills one slot of an array with the result for a number. -/
  | slot (handle : SlotHandle) (index : Nat) (number : UInt64)
deriving Repr, Inhabited

/-- A pool, the queue of requests before it, and the arrays of results. -/
structure Fanout (κ ι α ρ : Type) where
  /-- The workers. -/
  pool : Pool κ (FanJob ι ρ)
  /-- The requests for many blocks. -/
  queue : RangeQueue ρ := {}
  /-- The arrays of results. -/
  cache : SlotCache α := {}
  /-- The arrays that drainers wait for. -/
  handles : List (Nat × SlotHandle) := []
deriving Inhabited

/-- What a drainer does with a request. -/
inductive Drained (κ ρ : Type) where
  /-- It put its jobs into the pool.  Also the callers that could put in their last job. -/
  | started (done : List κ)
  /-- It could not allocate an array, and says why. -/
  | declined (returns : Option ρ) (fault : SlotFault)
  /-- Every slot is done. -/
  | ready (returns : Option ρ) (handle : SlotHandle)
deriving Repr

namespace Fanout

variable {κ ι α ρ : Type}

/-- A fan-out without workers. -/
def ofCapacity (capacity : Nat) : Fanout κ ι α ρ := { pool := Pool.ofCapacity capacity }

/-- A question is put into the pool.  Also the callers that are done. -/
def ask (f : Fanout κ ι α ρ) (caller : κ) (question : ι) (returns : Option ρ) :
    List κ × Fanout κ ι α ρ :=
  let (done, pool) := f.pool.send caller [.job (.single question returns)]
  (done, { f with pool := pool })

/-- A request is queued unless its identity is pending.  Also the drainer that is
started for it. -/
def enqueue? (f : Fanout κ ι α ρ) (r : RangeRequest ρ) : Option (Option Nat × Fanout κ ι α ρ) :=
  match f.queue.accept? r with
  | none => none
  | some (drainer, queue) => some (drainer, { f with queue := queue.send r.id })

/-- The jobs of a request, one per slot. -/
def slotJobs (handle : SlotHandle) (numbers : List UInt64) : List (PoolItem (FanJob ι ρ)) :=
  numbers.zipIdx.map fun (number, index) => .job (.slot handle index number)

/-- A drainer takes the next request. -/
def start? [BEq κ] (f : Fanout κ ι α ρ) (drainer : Nat) (caller : κ) :
    Option (Drained κ ρ × Fanout κ ι α ρ) :=
  match f.queue.receive? drainer with
  | none => none
  | some (r, queue) =>
    match f.cache.allocate r.id r.numbers.length with
    | .error fault =>
      let queue := r.numbers.foldl (fun q _ => q.onBarrier r.id Barrier.done) queue
      some (.declined r.returns fault, { f with queue := queue.complete drainer })
    | .ok (handle, cache) =>
      let (done, pool) := f.pool.send caller (slotJobs handle r.numbers)
      some (.started done,
        { f with
          queue := queue
          cache := cache
          handles := (drainer, handle) :: f.handles
          pool := pool })

/-- A drainer is done with its request. -/
def retire (f : Fanout κ ι α ρ) (drainer : Nat) : Fanout κ ι α ρ :=
  { f with
    queue := f.queue.complete drainer
    handles := f.handles.filter fun h => h.1 ≠ drainer }

/-- A drainer whose slots are all done answers its request. -/
def complete? [BEq κ] (f : Fanout κ ι α ρ) (drainer : Nat) (caller : κ) :
    Option (Drained κ ρ × Fanout κ ι α ρ) :=
  match f.queue.current? drainer, f.handles.find? fun h => h.1 = drainer with
  | some r, some (_, handle) =>
    if f.pool.isSending caller || f.queue.itemsLeft r.id ≠ 0 then none
    else some (.ready r.returns handle, f.retire drainer)
  | _, _ => none

/-- The result for a slot is written, or dropped where that cannot be. -/
def write (f : Fanout κ ι α ρ) (handle : SlotHandle) (index : Nat) (result : α) :
    Fanout κ ι α ρ :=
  { f with cache := (f.cache.setItem handle index result).toOption.getD f.cache }

/-- A slot is counted down. -/
def countDown (f : Fanout κ ι α ρ) (handle : SlotHandle) : Fanout κ ι α ρ :=
  { f with queue := f.queue.onBarrier handle.key Barrier.done }

/-- A worker has the result for a slot. -/
def fill (f : Fanout κ ι α ρ) (handle : SlotHandle) (index : Nat) (result : α) :
    Fanout κ ι α ρ := (f.write handle index result).countDown handle

/-- The drainer of a request. -/
def drainerOf? (f : Fanout κ ι α ρ) (handle : SlotHandle) : Option Nat :=
  (f.handles.find? fun h => h.2 = handle).map (·.1)

end Fanout

end ChainIndex
