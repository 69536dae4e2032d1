import Mathlib.Logic.Function.Basic
import ChainIndex.Proofs.Work.Pool
import ChainIndex.Proofs.Work.RangeQueue
import ChainIndex.Proofs.Work.SlotCache
import ChainIndex.Work.Fanout

/-!
# A fan-out and its callers

`FanCall` is what callers do to a fan-out, and `FanWork` what it does on its own.  Both come in
steps as small as the code has them.  A request enters the map of the pending and the channel in
two steps.  A drainer receives it, allocates an array and lines up, waits for the barrier and
answers, and only then takes the request off the map.  A worker writes its slot, counts it down, and
is free again.  The steps of all callers, drainers and workers come in any order.

A state keeps what is on the way between two steps: the workers that took an exit, how far each
worker is with its slot, and the drainers that have answered and not gone on.  It also keeps what
happened, which no step reads: who asked, who was answered, what workers wrote, and what callers took.

`fetches number a` says that fetching a number may bring `a`.
-/

namespace ChainIndex

/-! ## States -/

/-- One slot to fill. -/
structure SlotTask where
  handle : SlotHandle
  index : Nat
  number : UInt64
deriving DecidableEq

/-- How far a worker is with its slot. -/
inductive SlotStage
  | fetching
  | written
  | counted
deriving DecidableEq

/-- The answer to a request for many blocks. -/
inductive RangeAnswer
  | ready (handle : SlotHandle)
  | rejected (reason : String)

/-- A result that a worker had for a slot, and whether the slot took it. -/
structure SlotWrite (α : Type) where
  task : SlotTask
  result : α
  kept : Bool

/-- A fan-out between two steps, and what happened to it. -/
structure FanState (κ ι α ρ : Type) where
  fan : Fanout κ ι α ρ
  leaving : List Nat := []
  stage : Nat → SlotStage := fun _ => .fetching
  answered : List Nat := []
  asked : List (RangeRequest ρ) := []
  answers : List (RangeRequest ρ × RangeAnswer) := []
  writes : List (SlotWrite α) := []
  taken : List (SlotHandle × List (Option α)) := []

variable {κ ι α ρ : Type}

namespace FanState

/-- The pool of a fan-out between two steps. -/
def crew (s : FanState κ ι α ρ) : PoolState κ (FanJob ι ρ) := ⟨s.fan.pool, s.leaving⟩

/-- The fan-out with another pool. -/
def withCrew (s : FanState κ ι α ρ) (crew : PoolState κ (FanJob ι ρ)) : FanState κ ι α ρ :=
  { s with fan := { s.fan with pool := crew.pool }, leaving := crew.leaving }

/-- The fan-out with another queue. -/
def withQueue (s : FanState κ ι α ρ) (queue : RangeQueue ρ) : FanState κ ι α ρ :=
  { s with fan := { s.fan with queue := queue } }

/-- The fan-out with another cache. -/
def withCache (s : FanState κ ι α ρ) (cache : SlotCache α) : FanState κ ι α ρ :=
  { s with fan := { s.fan with cache := cache } }

/-- A drainer waits for an array. -/
def waitsFor (s : FanState κ ι α ρ) (d : Nat) (h : SlotHandle) : FanState κ ι α ρ :=
  { s with fan := { s.fan with handles := (d, h) :: s.fan.handles } }

/-- A caller lines up with some items. -/
def lineUp (s : FanState κ ι α ρ) (who : κ) (items : List (PoolItem (FanJob ι ρ))) :
    FanState κ ι α ρ := s.withCrew ⟨s.fan.pool.lineUp who items, s.leaving⟩

/-- A worker is so far with its slot. -/
def reaches (s : FanState κ ι α ρ) (worker : Nat) (stage : SlotStage) : FanState κ ι α ρ :=
  { s with stage := Function.update s.stage worker stage }

/-- A request is answered. -/
def answer (s : FanState κ ι α ρ) (r : RangeRequest ρ) (a : RangeAnswer) : FanState κ ι α ρ :=
  { s with answers := (r, a) :: s.answers }

end FanState

/-! ## Steps -/

/-- What callers do.  A call that scales to zero, or shuts the pool down, needs `toZero`. -/
inductive FanCall (toZero : Prop) (s : FanState κ ι α ρ) : FanState κ ι α ρ → Prop
  /-- A request comes, and its identity is not pending. -/
  | enqueue {r : RangeRequest ρ} {started : Option Nat} {queue : RangeQueue ρ}
      (accepted : s.fan.queue.accept? r = some (started, queue)) :
      FanCall toZero s { s.withQueue queue with asked := r :: s.asked }
  /-- A request comes, and its identity is pending. -/
  | again {r : RangeRequest ρ} (pending : s.fan.queue.accept? r = none) :
      FanCall toZero s
        { s.answer r (.rejected (RangeQueue.rejection r.id)) with asked := r :: s.asked }
  /-- A single question comes. -/
  | ask (who : κ) (question : ι) (returns : Option ρ) :
      FanCall toZero s (s.lineUp who [.job (.single question returns)])
  /-- The pool is scaled. -/
  | scale (who : κ) {count : UInt16} (allowed : count ≠ 0 ∨ toZero) :
      FanCall toZero s
        ((s.withCrew ⟨(s.fan.pool.setWorkers count).2.2, s.leaving⟩).lineUp who
          (List.replicate (s.fan.pool.setWorkers count).2.1 .exit))
  /-- The pool is shut down. -/
  | shutdown (who : κ) (allowed : toZero) :
      FanCall toZero s
        ((s.withCrew ⟨s.fan.pool.shutdown.2, s.leaving⟩).lineUp who
          (List.replicate s.fan.pool.shutdown.1 .exit))
  /-- A caller takes the array whose handle it was told. -/
  | take {r : RangeRequest ρ} {h : SlotHandle} {slots : List (Option α)} {cache : SlotCache α}
      (told : (r, .ready h) ∈ s.answers) (takes : s.fan.cache.takeArray h = .ok (slots, cache)) :
      FanCall toZero s { s.withCache cache with taken := (h, slots) :: s.taken }

section

variable [BEq κ] (caller : Nat → κ) (fetches : UInt64 → α → Prop)

/-- What a fan-out does on its own.  A drainer puts its jobs into the pool as the caller that
`caller` names. -/
inductive FanWork (s : FanState κ ι α ρ) : FanState κ ι α ρ → Prop
  /-- An accepted request enters the channel. -/
  | send {r : RangeRequest ρ} (accepted : r ∈ s.fan.queue.sending) :
      FanWork s (s.withQueue (s.fan.queue.send r.id))
  /-- A drainer receives a request. -/
  | receive {d : Nat} {r : RangeRequest ρ} {queue : RangeQueue ρ}
      (received : s.fan.queue.receive? d = some (r, queue)) : FanWork s (s.withQueue queue)
  /-- A drainer allocates an array and lines up with a job for each slot. -/
  | allocate {d : Nat} {r : RangeRequest ρ} {h : SlotHandle} {cache : SlotCache α}
      (on : (d, r) ∈ s.fan.queue.draining) (begins : ∀ h, (d, h) ∉ s.fan.handles)
      (silent : d ∉ s.answered)
      (allocated : s.fan.cache.allocate r.id r.numbers.length = .ok (h, cache)) :
      FanWork s
        (((s.withCache cache).waitsFor d h).lineUp (caller d) (Fanout.slotJobs h r.numbers))
  /-- A drainer cannot allocate an array: it counts every slot down, and says why. -/
  | decline {d : Nat} {r : RangeRequest ρ} {fault : SlotFault}
      (on : (d, r) ∈ s.fan.queue.draining) (begins : ∀ h, (d, h) ∉ s.fan.handles)
      (silent : d ∉ s.answered)
      (refused : s.fan.cache.allocate r.id r.numbers.length = .error fault) :
      FanWork s
        { (s.withQueue (r.numbers.foldl (fun q _ => q.onBarrier r.id Barrier.done) s.fan.queue)).answer
            r (.rejected fault.message) with answered := d :: s.answered }
  /-- A drainer has put in all its jobs, finds every slot counted down, and answers. -/
  | pass {d : Nat} {r : RangeRequest ρ} {h : SlotHandle}
      (on : (d, r) ∈ s.fan.queue.draining) (waits : (d, h) ∈ s.fan.handles) (silent : d ∉ s.answered)
      (sent : s.fan.pool.isSending (caller d) = false) (done : s.fan.queue.itemsLeft r.id = 0) :
      FanWork s { s.answer r (.ready h) with answered := d :: s.answered }
  /-- A drainer that has answered completes its request. -/
  | retire {d : Nat} (told : d ∈ s.answered) :
      FanWork s { s with fan := s.fan.retire d, answered := s.answered.filter (· ≠ d) }
  /-- The pool goes on. -/
  | pool {crew : PoolState κ (FanJob ι ρ)} (step : PoolStep s.crew crew) :
      FanWork s (s.withCrew crew)
  /-- A worker has a result and writes its slot, or drops the result. -/
  | write {w : Nat} {t : SlotTask} {a : α}
      (busy : (w, .slot t.handle t.index t.number) ∈ s.fan.pool.busy)
      (stage : s.stage w = .fetching) (result : fetches t.number a) :
      FanWork s
        { s.reaches w .written with
          fan := s.fan.write t.handle t.index a
          writes := ⟨t, a, (s.fan.cache.setItem t.handle t.index a).toBool⟩ :: s.writes }
  /-- A worker counts its slot down. -/
  | count {w : Nat} {t : SlotTask}
      (busy : (w, .slot t.handle t.index t.number) ∈ s.fan.pool.busy) (stage : s.stage w = .written) :
      FanWork s { s.reaches w .counted with fan := s.fan.countDown t.handle }
  /-- A worker is done with its job. -/
  | finish {w : Nat} {j : FanJob ι ρ} (busy : (w, j) ∈ s.fan.pool.busy)
      (ended : ∀ h i n, j = .slot h i n → s.stage w = .counted) :
      FanWork s ((s.withCrew ⟨s.fan.pool.finish w, s.leaving⟩).reaches w .fetching)

/-- A fan-out comes to a state from one without workers. -/
inductive FanState.Reachable (toZero : Prop) : FanState κ ι α ρ → Prop
  | start (capacity : Nat) : Reachable toZero { fan := Fanout.ofCapacity capacity }
  | call {s t : FanState κ ι α ρ} (before : Reachable toZero s) (call : FanCall toZero s t) :
      Reachable toZero t
  | work {s t : FanState κ ι α ρ} (before : Reachable toZero s) (work : FanWork caller fetches s t) :
      Reachable toZero t

end

/-! ## Workers -/

namespace FanState

variable {s t : FanState κ ι α ρ}

/-- Every worker has a name of its own, and only a worker on a slot is anywhere with it. -/
structure Staffed (s : FanState κ ι α ρ) : Prop where
  distinct : s.crew.Distinct
  stage : ∀ w, s.stage w ≠ .fetching → ∃ h i n, (w, .slot h i n) ∈ s.fan.pool.busy

namespace Staffed

theorem fresh (h : s.Staffed) {w : Nat} (idle : w ∈ s.fan.pool.idle) : s.stage w = .fetching := by
  by_cases begins : s.stage w = .fetching
  · exact begins
  · obtain ⟨_, _, _, busy⟩ := h.stage w begins
    exact (h.distinct.idle_not_busy idle busy).elim

theorem congr (h : s.Staffed) (crew : t.crew = s.crew)
    (stage : t.stage = s.stage) : t.Staffed where
  distinct := crew ▸ h.distinct
  stage w reached := by
    obtain ⟨k, i, n, busy⟩ := h.stage w (stage ▸ reached)
    have pool : t.fan.pool = s.fan.pool := congrArg PoolState.pool crew
    exact ⟨k, i, n, pool ▸ busy⟩

theorem lineUp (h : s.Staffed) (who : κ) (items : List (PoolItem (FanJob ι ρ))) :
    (s.lineUp who items).Staffed where
  distinct := h.distinct.lineUp who items
  stage w reached := by
    obtain ⟨k, i, n, busy⟩ := h.stage w reached
    obtain ⟨line, same⟩ := s.fan.pool.lineUp_eq who items
    refine ⟨k, i, n, ?_⟩
    show _ ∈ (s.fan.pool.lineUp who items).busy
    rw [same]
    exact busy

theorem setWorkers (h : s.Staffed) (count : UInt16) :
    (s.withCrew ⟨(s.fan.pool.setWorkers count).2.2, s.leaving⟩).Staffed where
  distinct := h.distinct.setWorkers count
  stage w reached := by
    obtain ⟨k, i, n, busy⟩ := h.stage w reached
    refine ⟨k, i, n, ?_⟩
    show _ ∈ (s.fan.pool.setWorkers count).2.2.busy
    rw [Pool.setWorkers]
    split
    · exact busy
    · exact busy

theorem pool (h : s.Staffed) {crew : PoolState κ (FanJob ι ρ)} (step : PoolStep s.crew crew) :
    (s.withCrew crew).Staffed where
  distinct := step.distinct h.distinct
  stage w reached := by
    obtain ⟨k, i, n, busy⟩ := h.stage w reached
    exact ⟨k, i, n, step.busy_mono busy⟩

/-- A worker on a slot gets further with it. -/
theorem reaches (h : s.Staffed) {w : Nat} {t : SlotTask}
    (busy : (w, .slot t.handle t.index t.number) ∈ s.fan.pool.busy) (stage : SlotStage) :
    (s.reaches w stage).Staffed where
  distinct := h.distinct
  stage v reached := by
    by_cases same : v = w
    · exact ⟨_, _, _, same ▸ busy⟩
    · simp only [FanState.reaches, Function.update_of_ne same] at reached
      exact h.stage v reached

theorem finish (h : s.Staffed) {w : Nat} {j : FanJob ι ρ} (busy : (w, j) ∈ s.fan.pool.busy) :
    ((s.withCrew ⟨s.fan.pool.finish w, s.leaving⟩).reaches w .fetching).Staffed where
  distinct := by
    refine h.distinct.of_perm [] (PoolState.ids_finish h.distinct busy) ?_
    show (s.fan.pool.finish w).issued = _
    rw [Pool.finish_of_mem busy]
    rfl
  stage v reached := by
    by_cases same : v = w
    · simp [FanState.reaches, same] at reached
    · simp only [FanState.reaches, Function.update_of_ne same] at reached
      obtain ⟨k, i, n, there⟩ := h.stage v reached
      refine ⟨k, i, n, ?_⟩
      show _ ∈ (s.fan.pool.finish w).busy
      rw [Pool.finish_of_mem busy]
      exact List.mem_filter.mpr ⟨there, by simpa using same⟩

end Staffed

end FanState

/-! ## Slots that are due -/

/-- The weight of an item by the slot that it is about. -/
def slotWeight (weigh : SlotTask → Nat) : PoolItem (FanJob ι ρ) → Nat
  | .job (.slot h i n) => weigh ⟨h, i, n⟩
  | .job (.single _ _) => 0
  | .exit => 0

/-- The weight of a job whose worker is in one of some stages. -/
def stageWeight (stages : SlotStage → Bool) (stage : Nat → SlotStage) (weigh : SlotTask → Nat) (w : Nat)
    (j : FanJob ι ρ) : Nat := if stages (stage w) then slotWeight weigh (.job j) else 0

namespace FanState

/-- The weight of the slots that wait for a worker, or whose worker is in one of some stages. -/
def due (s : FanState κ ι α ρ) (stages : SlotStage → Bool) (weigh : SlotTask → Nat) : Nat :=
  s.fan.pool.waiting (slotWeight weigh) + s.fan.pool.held (stageWeight stages s.stage weigh)

/-- The weight of the slots that no worker has written. -/
def unwritten (s : FanState κ ι α ρ) : (SlotTask → Nat) → Nat := s.due (· = .fetching)

/-- The weight of the slots that no worker has counted down. -/
def uncounted (s : FanState κ ι α ρ) : (SlotTask → Nat) → Nat := s.due (· ≠ .counted)

variable {s t : FanState κ ι α ρ} {stages : SlotStage → Bool} {weigh : SlotTask → Nat}

theorem due_mono {stages' : SlotStage → Bool} (fewer : ∀ x, stages x → stages' x)
    (s : FanState κ ι α ρ) (weigh : SlotTask → Nat) : s.due stages weigh ≤ s.due stages' weigh := by
  refine Nat.add_le_add_left (List.sum_le_sum ?_) _
  intro b _
  by_cases counts : stages (s.stage b.1)
  · simp [stageWeight, counts, fewer _ counts]
  · simp [stageWeight, counts]

theorem unwritten_le_uncounted (s : FanState κ ι α ρ) (weigh : SlotTask → Nat) :
    s.unwritten weigh ≤ s.uncounted weigh :=
  due_mono (by simp) s weigh

theorem due_lineUp (s : FanState κ ι α ρ) (who : κ) (items : List (PoolItem (FanJob ι ρ))) :
    (s.lineUp who items).due stages weigh =
      s.due stages weigh + (items.map (slotWeight weigh)).sum := by
  have holds (hold : Nat → FanJob ι ρ → Nat) :
      (s.fan.pool.lineUp who items).held hold = s.fan.pool.held hold := by
    obtain ⟨line, same⟩ := s.fan.pool.lineUp_eq who items
    rw [same]
    rfl
  show (s.fan.pool.lineUp who items).waiting _ +
    (s.fan.pool.lineUp who items).held (stageWeight stages s.stage weigh) = _
  rw [Pool.waiting_lineUp, holds, due]
  omega

theorem due_setWorkers (s : FanState κ ι α ρ) (count : UInt16) :
    (s.withCrew ⟨(s.fan.pool.setWorkers count).2.2, s.leaving⟩).due stages weigh =
      s.due stages weigh := by
  rw [Pool.setWorkers]
  split
  · rfl
  · rfl

theorem due_pool (h : s.Staffed) {crew : PoolState κ (FanJob ι ρ)} (step : PoolStep s.crew crew)
    (fetching : stages .fetching) : (s.withCrew crew).due stages weigh = s.due stages weigh := by
  refine step.weight_eq rfl ?_
  intro w idle j
  show stageWeight stages s.stage weigh w j = _
  rw [stageWeight, h.fresh idle, if_pos fetching]

/-- Where a worker gets further, its slot may come to weigh or cease to. -/
theorem due_reaches (h : s.Staffed) (stages : SlotStage → Bool) (weigh : SlotTask → Nat) {w : Nat}
    {x : SlotTask}
    (busy : (w, .slot x.handle x.index x.number) ∈ s.fan.pool.busy) (stage : SlotStage) :
    (s.reaches w stage).due stages weigh + (if stages (s.stage w) then weigh x else 0) =
      s.due stages weigh + if stages stage then weigh x else 0 := by
  have others : ∀ v, v ≠ w → ∀ j : FanJob ι ρ,
      stageWeight stages (Function.update s.stage w stage) weigh v j =
        stageWeight stages s.stage weigh v j := by
    intro v other j
    rw [stageWeight, stageWeight, Function.update_of_ne other]
  have moved := Pool.held_change busy h.distinct.busy others
  have weight (reached : Nat → SlotStage) : stageWeight stages reached weigh w
      (.slot x.handle x.index x.number : FanJob ι ρ) = if stages (reached w) then weigh x else 0 := rfl
  rw [weight, weight, Function.update_self] at moved
  show s.fan.pool.waiting _ + s.fan.pool.held (stageWeight stages (Function.update s.stage w stage) weigh)
    + _ = s.fan.pool.waiting _ + s.fan.pool.held _ + _
  omega

/-- A slot that is written is no longer unwritten. -/
theorem unwritten_write (h : s.Staffed) (weigh : SlotTask → Nat) {w : Nat} {x : SlotTask}
    (busy : (w, .slot x.handle x.index x.number) ∈ s.fan.pool.busy) (stage : s.stage w = .fetching) :
    (s.reaches w .written).unwritten weigh + weigh x = s.unwritten weigh := by
  have moved := due_reaches h (· = .fetching) weigh busy .written
  simpa [stage, unwritten] using moved

theorem uncounted_write (h : s.Staffed) (weigh : SlotTask → Nat) {w : Nat} {x : SlotTask}
    (busy : (w, .slot x.handle x.index x.number) ∈ s.fan.pool.busy) (stage : s.stage w = .fetching) :
    (s.reaches w .written).uncounted weigh = s.uncounted weigh := by
  have moved := due_reaches h (· ≠ .counted) weigh busy .written
  simpa [stage, uncounted] using moved

theorem unwritten_count (h : s.Staffed) (weigh : SlotTask → Nat) {w : Nat} {x : SlotTask}
    (busy : (w, .slot x.handle x.index x.number) ∈ s.fan.pool.busy) (stage : s.stage w = .written) :
    (s.reaches w .counted).unwritten weigh = s.unwritten weigh := by
  have moved := due_reaches h (· = .fetching) weigh busy .counted
  simpa [stage, unwritten] using moved

/-- A slot that is counted down is no longer uncounted. -/
theorem uncounted_count (h : s.Staffed) (weigh : SlotTask → Nat) {w : Nat} {x : SlotTask}
    (busy : (w, .slot x.handle x.index x.number) ∈ s.fan.pool.busy) (stage : s.stage w = .written) :
    (s.reaches w .counted).uncounted weigh + weigh x = s.uncounted weigh := by
  have moved := due_reaches h (· ≠ .counted) weigh busy .counted
  simpa [stage, uncounted] using moved

theorem due_finish (h : s.Staffed) {w : Nat} {j : FanJob ι ρ} (busy : (w, j) ∈ s.fan.pool.busy)
    (ended : ∀ h i n, j = .slot h i n → s.stage w = .counted) (counted : stages .counted = false) :
    ((s.withCrew ⟨s.fan.pool.finish w, s.leaving⟩).reaches w .fetching).due stages weigh =
      s.due stages weigh := by
  have light : stageWeight stages s.stage weigh w j = 0 := by
    cases j with
    | single => simp [stageWeight, slotWeight]
    | slot k i n => simp [stageWeight, ended k i n rfl, counted]
  have waits : (s.fan.pool.finish w).waiting (slotWeight weigh) =
      s.fan.pool.waiting (slotWeight weigh) := by
    rw [Pool.finish_of_mem busy]
    rfl
  have holds : (s.fan.pool.finish w).held
        (stageWeight stages (Function.update s.stage w .fetching) weigh) =
      s.fan.pool.held (stageWeight stages s.stage weigh) := by
    rw [Pool.held_finish busy h.distinct.busy, light, Nat.add_zero]
    refine Pool.held_congr ?_
    intro b hb
    rw [Pool.finish_of_mem busy] at hb
    have other : b.1 ≠ w := by simpa using (List.mem_filter.mp hb).2
    rw [stageWeight, stageWeight, Function.update_of_ne other]
  show (s.fan.pool.finish w).waiting _ + (s.fan.pool.finish w).held
    (stageWeight stages (Function.update s.stage w .fetching) weigh) = _
  rw [waits, holds, due]

end FanState

end ChainIndex
