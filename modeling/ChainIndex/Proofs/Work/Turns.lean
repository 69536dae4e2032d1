import Mathlib.Logic.Relation
import ChainIndex.Proofs.Work.Ranges
import ChainIndex.Proofs.Work.Scaling

/-!
# Whole calls are runs of steps

A fan-out that runs makes several steps at a time: a caller puts in all that fits, a drainer takes a
request and lines up at once, a worker writes its slot and counts it down.  Each of these calls is a
run of `FanWork`, so what holds in every reachable state holds after every such call.
-/

namespace ChainIndex

open Relation (ReflTransGen)

variable {κ ι α ρ J : Type}

/-! ## Pools -/

/-- Senders that put items in while there is room make steps of the pool. -/
theorem letInAll_steps (n : Nat) (p : Pool κ J) (leaving : List Nat) :
    ReflTransGen PoolStep ⟨p, leaving⟩ ⟨(p.letInAll n).2, leaving⟩ := by
  induction n generalizing p with
  | zero => exact .refl
  | succ n ih =>
    rw [Pool.letInAll]
    cases goes : p.letIn? with
    | none => exact .refl
    | some next =>
      obtain ⟨done, p'⟩ := next
      have first : PoolStep ⟨p, leaving⟩ ⟨p', leaving⟩ := .letIn (.refl p.senders) goes
      exact .head first (ih p')

/-- A caller lines up with its items, and steps of the pool follow. -/
theorem send_steps (p : Pool κ J) (caller : κ) (items : List (PoolItem J)) (leaving : List Nat) :
    ReflTransGen PoolStep ⟨p.lineUp caller items, leaving⟩ ⟨(p.send caller items).2, leaving⟩ := by
  cases items with
  | nil => exact .refl
  | cons item rest => exact letInAll_steps _ _ leaving

/-- A worker that takes an item makes a step of the pool, and more follow. -/
theorem pick?_steps {p p' : Pool κ J} {worker : Nat} {item : PoolItem J} {done : List κ}
    (picks : p.pick? worker = some (item, done, p')) (leaving : List Nat) :
    ReflTransGen PoolStep ⟨p, leaving⟩ ⟨p', leaving⟩ := by
  rw [Pool.pick?] at picks
  cases takes : p.take? worker with
  | none => simp [takes] at picks
  | some taken =>
    obtain ⟨item', q⟩ := taken
    rw [takes] at picks
    cases item' with
    | job j =>
      cases picks
      have first : PoolStep ⟨p, leaving⟩ ⟨q, leaving⟩ := .takeJob (.refl p.idle) takes
      exact .head first (letInAll_steps _ _ leaving)
    | exit =>
      cases picks
      have first : PoolStep ⟨p, leaving⟩ ⟨q, worker :: leaving⟩ := .takeExit (.refl p.idle) takes
      have second : PoolStep ⟨q, worker :: leaving⟩ ⟨q.leave, leaving⟩ := by
        have out : worker ∈ worker :: leaving := List.mem_cons_self
        have leaves : PoolStep ⟨q, worker :: leaving⟩ ⟨q.leave, _⟩ := .leave out
        rwa [List.erase_cons_head] at leaves
      exact .head first (.head second (letInAll_steps _ _ leaving))

namespace PoolRuns

variable {capacity : Nat} {log : List (PoolEvent J)} {s t : PoolState κ J}

/-- A run goes on with what the pool does on its own. -/
theorem goes_on (runs : PoolRuns capacity log s) (steps : ReflTransGen PoolStep s t) :
    ∃ more, PoolRuns capacity (log ++ more) t := by
  induction steps with
  | refl => exact ⟨[], by rwa [List.append_nil]⟩
  | tail _ step ih =>
    obtain ⟨more, runs⟩ := ih
    obtain ⟨e, work⟩ := step.work runs.filled
    exact ⟨more ++ [e], by rw [← List.append_assoc]; exact runs.step (.inr work)⟩

/-- A run goes on with a caller that puts a job in. -/
theorem send (runs : PoolRuns capacity log s) (who : κ) (j : J) :
    ∃ more, PoolRuns capacity (log ++ more) ⟨(s.pool.send who [.job j]).2, s.leaving⟩ := by
  have lined := runs.step (.inl (.submit who j))
  obtain ⟨more, goes⟩ := lined.goes_on (send_steps s.pool who [.job j] s.leaving)
  exact ⟨.submits j :: more, by rwa [List.append_assoc] at goes⟩

/-- A run goes on with a scale call that puts its exits in. -/
theorem scale (runs : PoolRuns capacity log s) (who : κ) (count : UInt16) :
    ∃ more, PoolRuns capacity (log ++ more)
      ⟨((s.pool.setWorkers count).2.2.send who
        (List.replicate (s.pool.setWorkers count).2.1 .exit)).2, s.leaving⟩ := by
  have lined := runs.step (.inl (.scale who count))
  obtain ⟨more, goes⟩ := lined.goes_on (send_steps (s.pool.setWorkers count).2.2 who
    (List.replicate (s.pool.setWorkers count).2.1 .exit) s.leaving)
  exact ⟨.scales count :: more, by rwa [List.append_assoc] at goes⟩

/-- A run goes on with a worker that takes an item. -/
theorem pick (runs : PoolRuns capacity log s) {worker : Nat} {item : PoolItem J} {done : List κ}
    {p : Pool κ J} (picks : s.pool.pick? worker = some (item, done, p)) :
    ∃ more, PoolRuns capacity (log ++ more) ⟨p, s.leaving⟩ :=
  runs.goes_on (pick?_steps picks s.leaving)

end PoolRuns

/-! ## Fan-outs -/

variable [BEq κ] {caller : Nat → κ} {fetches : UInt64 → α → Prop} {s : FanState κ ι α ρ}

theorem FanWork.steps {crew : PoolState κ (FanJob ι ρ)} (steps : ReflTransGen PoolStep s.crew crew) :
    ReflTransGen (FanWork caller fetches) s (s.withCrew crew) := by
  induction steps with
  | refl => exact .refl
  | @tail crew next _ step ih => exact ih.tail (.pool (s := s.withCrew crew) step)

namespace FanState

/-- A request that is queued is accepted and then sent. -/
theorem enqueue?_steps {toZero : Prop} {r : RangeRequest ρ} {started : Option Nat}
    {f : Fanout κ ι α ρ} (queues : s.fan.enqueue? r = some (started, f)) :
    ∃ t, FanCall toZero s t ∧ FanWork caller fetches t { s with fan := f, asked := r :: s.asked } := by
  rw [Fanout.enqueue?] at queues
  cases accepted : s.fan.queue.accept? r with
  | none => simp [accepted] at queues
  | some next =>
    obtain ⟨drainer, queue⟩ := next
    rw [accepted] at queues
    cases queues
    have there : r ∈ queue.sending := by
      rw [(RangeQueue.accept?_some accepted).2]
      exact List.mem_append_right _ List.mem_cons_self
    exact ⟨_, .enqueue accepted,
      .send (s := { s.withQueue queue with asked := r :: s.asked }) there⟩

/-- A drainer that starts with a request receives it and lines up, or declines it and goes on. -/
theorem start?_steps (sound : s.Sound fetches) {d : Nat} {did : Drained κ ρ} {f : Fanout κ ι α ρ}
    (starts : s.fan.start? d (caller d) = some (did, f)) :
    ∃ t, ReflTransGen (FanWork caller fetches) s t ∧ t.fan = f := by
  rw [Fanout.start?] at starts
  cases received : s.fan.queue.receive? d with
  | none => simp [received] at starts
  | some next =>
    obtain ⟨r, queue⟩ := next
    obtain ⟨_, off, _, _, same⟩ := RangeQueue.receive?_some sound.queued.sound received
    obtain ⟨free, silent, _⟩ := sound.drains.at_rest off
    have first : FanWork caller fetches s (s.withQueue queue) := .receive received
    have there : (d, r) ∈ (s.withQueue queue).fan.queue.draining := by
      show (d, r) ∈ queue.draining
      rw [same]
      exact List.mem_cons_self
    have begins : ∀ h, (d, h) ∉ (s.withQueue queue).fan.handles := by
      show ∀ h, (d, h) ∉ s.fan.handles
      simp [free]
    have quiet : d ∉ (s.withQueue queue).answered := by
      show d ∉ s.answered
      simp [silent]
    rw [received] at starts
    cases allocated : s.fan.cache.allocate r.id r.numbers.length with
    | error fault =>
      simp only [allocated] at starts
      cases starts
      have second : FanWork caller fetches (s.withQueue queue) _ :=
        .decline there begins quiet allocated
      refine ⟨_, .head first (.head second (.single (.retire (d := d) List.mem_cons_self))), ?_⟩
      simp [Fanout.retire, answer, withQueue, free]
    | ok array =>
      obtain ⟨h, cache⟩ := array
      simp only [allocated] at starts
      cases starts
      have second : FanWork caller fetches (s.withQueue queue) _ :=
        .allocate there begins quiet allocated
      have rest := send_steps s.fan.pool (caller d) (Fanout.slotJobs h r.numbers) s.leaving
      exact ⟨_, .head first (.head second (FanWork.steps rest)), rfl⟩

/-- A drainer that answers a request passes its barrier and goes on. -/
theorem complete?_steps {d : Nat} {did : Drained κ ρ} {f : Fanout κ ι α ρ} (silent : d ∉ s.answered)
    (completes : s.fan.complete? d (caller d) = some (did, f)) :
    ∃ t, ReflTransGen (FanWork caller fetches) s t ∧ t.fan = f := by
  rw [Fanout.complete?] at completes
  split at completes
  case h_2 => cases completes
  case h_1 r e h current found =>
    split at completes
    case isTrue => cases completes
    case isFalse ready =>
      cases completes
      simp only [Bool.or_eq_true, not_or, Bool.not_eq_true, decide_eq_true_eq, not_not] at ready
      have waits : (d, h) ∈ s.fan.handles := by
        have same : e = d := by simpa using List.find?_some found
        exact same ▸ List.mem_of_find?_eq_some found
      have on : (d, r) ∈ s.fan.queue.draining := by
        obtain ⟨⟨e', r'⟩, there, rfl⟩ := Option.map_eq_some_iff.mp current
        have same : e' = d := by simpa using List.find?_some there
        exact same ▸ List.mem_of_find?_eq_some there
      have first : FanWork caller fetches s _ := .pass on waits silent ready.1 ready.2
      exact ⟨_, .head first (.single (.retire (d := d) List.mem_cons_self)), rfl⟩

/-- A worker with a result writes its slot and counts it down. -/
theorem fill_steps {w : Nat} {x : SlotTask} {a : α}
    (busy : (w, .slot x.handle x.index x.number) ∈ s.fan.pool.busy) (stage : s.stage w = .fetching)
    (result : fetches x.number a) :
    ∃ t, ReflTransGen (FanWork caller fetches) s t ∧ t.fan = s.fan.fill x.handle x.index a := by
  have first : FanWork caller fetches s _ := .write busy stage result
  have reached : Function.update s.stage w SlotStage.written w = .written := Function.update_self ..
  have second : FanWork caller fetches
      { s.reaches w .written with
        fan := s.fan.write x.handle x.index a
        writes := ⟨x, a, (s.fan.cache.setItem x.handle x.index a).toBool⟩ :: s.writes } _ :=
    .count (w := w) (t := x) busy reached
  exact ⟨_, .head first (.single second), rfl⟩

/-- A single question is put into the pool. -/
theorem ask_steps {toZero : Prop} (who : κ) (question : ι) (returns : Option ρ) :
    ∃ t, FanCall toZero s t ∧ ReflTransGen (FanWork caller fetches) t
      { s with fan := (s.fan.ask who question returns).2 } :=
  ⟨_, .ask who question returns, FanWork.steps
    (s := s.lineUp who [.job (.single question returns)])
    (send_steps s.fan.pool who [.job (.single question returns)] s.leaving)⟩

end FanState

end ChainIndex
