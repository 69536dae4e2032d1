import ChainIndex.Work.Barrier

/-!
# Ranges, one at a time

Requests for many blocks come from many callers, and one drainer works through them.
A request is accepted unless its identity is pending.  An accepted one has a barrier
with one item per number, and it is pending from then until the drainer has
completed it.

A request first enters the map of the pending (`accept`), which starts a drainer if
none is alive, and then the channel (`send`).  The drainer ends when it completes a
request and none is pending any more.
-/

namespace ChainIndex

/-- A request for many blocks. -/
structure RangeRequest (ρ : Type) where
  /-- Its identity. -/
  id : String
  /-- The numbers of the blocks. -/
  numbers : List UInt64
  /-- Where the answer goes. -/
  returns : Option ρ
deriving Repr, Inhabited

/-- A queue of requests and its drainer. -/
structure RangeQueue (ρ : Type) where
  /-- The barriers of the pending requests, by identity. -/
  pending : List (String × Barrier) := []
  /-- The drainers alive. -/
  drainers : List Nat := []
  /-- The drainers started. -/
  issued : Nat := 0
  /-- The accepted requests that are not in the channel yet. -/
  sending : List (RangeRequest ρ) := []
  /-- The requests in the channel, the next one first. -/
  channel : List (RangeRequest ρ) := []
  /-- The requests that drainers are on. -/
  draining : List (Nat × RangeRequest ρ) := []
deriving Repr, Inhabited

namespace RangeQueue

variable {ρ : Type}

/-- The wording of a rejection. -/
def rejection (id : String) : String := "request '" ++ id ++ "' is already queued"

/-- The barrier of a pending request. -/
def barrier? (q : RangeQueue ρ) (id : String) : Option Barrier :=
  (q.pending.find? fun e => e.1 == id).map (·.2)

/-- A request becomes pending, unless its identity is pending.  Also the drainer that
is started for it. -/
def accept? (q : RangeQueue ρ) (r : RangeRequest ρ) : Option (Option Nat × RangeQueue ρ) :=
  match q.barrier? r.id with
  | some _ => none
  | none =>
    let q := { q with
      pending := q.pending ++ [(r.id, Barrier.ofCount r.numbers.length)]
      sending := q.sending ++ [r] }
    if q.drainers.isEmpty then
      let drainer := q.issued + 1
      some (some drainer, { q with drainers := [drainer], issued := drainer })
    else some (none, q)

/-- An accepted request enters the channel. -/
def send (q : RangeQueue ρ) (id : String) : RangeQueue ρ :=
  match q.sending.find? fun r => r.id == id with
  | none => q
  | some r => { q with sending := q.sending.filter fun r => r.id != id, channel := q.channel ++ [r] }

/-- A drainer takes the next request. -/
def receive? (q : RangeQueue ρ) (drainer : Nat) : Option (RangeRequest ρ × RangeQueue ρ) :=
  if q.drainers.contains drainer && !q.draining.any fun d => d.1 = drainer then
    match q.channel with
    | [] => none
    | r :: rest => some (r, { q with channel := rest, draining := q.draining ++ [(drainer, r)] })
  else none

/-- The request that a drainer is on. -/
def current? (q : RangeQueue ρ) (drainer : Nat) : Option (RangeRequest ρ) :=
  (q.draining.find? fun d => d.1 = drainer).map (·.2)

/-- The barrier of a pending request changed. -/
def onBarrier (q : RangeQueue ρ) (id : String) (f : Barrier → Barrier) : RangeQueue ρ :=
  { q with pending := q.pending.map fun e => if e.1 == id then (e.1, f e.2) else e }

/-- The items of a pending request that are not done. -/
def itemsLeft (q : RangeQueue ρ) (id : String) : Nat := ((q.barrier? id).map Barrier.pending).getD 0

/-- A drainer completes its request, and ends if none is pending any more. -/
def complete (q : RangeQueue ρ) (drainer : Nat) : RangeQueue ρ :=
  match q.current? drainer with
  | none => q
  | some r =>
    let q := { q with
      pending := q.pending.filter fun e => e.1 != r.id
      draining := q.draining.filter fun d => d.1 ≠ drainer }
    if q.pending.isEmpty then { q with drainers := q.drainers.filter (· ≠ drainer) } else q

end RangeQueue

end ChainIndex
