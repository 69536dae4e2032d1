import Mathlib.Data.List.Range
import ChainIndex.Proofs.Work.Balance

/-!
# Runs of a pool

Callers put jobs in, scale the pool and shut it down.  Workers start, take items, finish their jobs
and leave.  `PoolRuns` allows these in any order, and keeps a log of what happened, which no step
reads.

A call takes effect at once: its workers are given out, and its items stand in line.  The items get
into the queue later, one by one, and a worker that took an exit is counted until it leaves.

What is in the log and what is in the pool fit together, by what the event of each step says
(`PoolEffect`).  What entered the queue is what was taken and what is still in it, in order
(`PoolRuns.queued`).  What a worker took is what it handled and what it is on (`PoolRuns.own`).  The
workers given out are those at work and those that are gone (`PoolRuns.given`).
-/

namespace ChainIndex

variable {κ J : Type}

/-! ## Logs -/

/-- What happens in a pool. -/
inductive PoolEvent (J : Type) where
  | submits (j : J)
  | scales (count : UInt16)
  | shuts
  /-- An item gets from its caller into the queue. -/
  | enters (item : PoolItem J)
  | starts (worker : Nat)
  | takes (worker : Nat) (item : PoolItem J)
  /-- A worker is done with a job. -/
  | handles (worker : Nat) (j : J)
  /-- A worker that took an exit is no longer counted. -/
  | leaves (worker : Nat)

def PoolItem.job? : PoolItem J → Option J
  | .job j => some j
  | .exit => none

/-- The jobs among some items. -/
def jobs (items : List (PoolItem J)) : List J := items.filterMap PoolItem.job?

theorem jobs_append (items items' : List (PoolItem J)) :
    jobs (items ++ items') = jobs items ++ jobs items' := List.filterMap_append

/-- The items that wait for room. -/
def Pool.unsent (p : Pool κ J) : List (PoolItem J) := p.senders.flatMap (·.items)

namespace PoolEvent

variable (log : List (PoolEvent J))

def submitted : List J := log.filterMap fun
  | .submits j => some j
  | _ => none

def entered : List (PoolItem J) := log.filterMap fun
  | .enters item => some item
  | _ => none

def taken : List (Nat × PoolItem J) := log.filterMap fun
  | .takes worker item => some (worker, item)
  | _ => none

def takenJobs : List (Nat × J) := log.filterMap fun
  | .takes worker (.job j) => some (worker, j)
  | _ => none

def handled : List (Nat × J) := log.filterMap fun
  | .handles worker j => some (worker, j)
  | _ => none

def started : List Nat := log.filterMap fun
  | .starts worker => some worker
  | _ => none

/-- The workers that took an exit. -/
def retired : List Nat := log.filterMap fun
  | .takes worker .exit => some worker
  | _ => none

def left : List Nat := log.filterMap fun
  | .leaves worker => some worker
  | _ => none

/-- The jobs that callers got into the queue. -/
def accepted : List J := jobs (entered log)

/-- The number of workers that started and have not left. -/
def alive : Nat := (started log).length - (left log).length

theorem alive_le_length : alive log ≤ log.length :=
  Nat.le_trans (Nat.sub_le _ _) (List.length_filterMap_le _ log)

section

variable (log' : List (PoolEvent J))

@[simp] theorem submitted_append : submitted (log ++ log') = submitted log ++ submitted log' :=
  List.filterMap_append

@[simp] theorem entered_append : entered (log ++ log') = entered log ++ entered log' :=
  List.filterMap_append

@[simp] theorem taken_append : taken (log ++ log') = taken log ++ taken log' :=
  List.filterMap_append

@[simp] theorem takenJobs_append : takenJobs (log ++ log') = takenJobs log ++ takenJobs log' :=
  List.filterMap_append

@[simp] theorem handled_append : handled (log ++ log') = handled log ++ handled log' :=
  List.filterMap_append

@[simp] theorem started_append : started (log ++ log') = started log ++ started log' :=
  List.filterMap_append

@[simp] theorem retired_append : retired (log ++ log') = retired log ++ retired log' :=
  List.filterMap_append

@[simp] theorem left_append : left (log ++ log') = left log ++ left log' :=
  List.filterMap_append

end

theorem jobs_taken : jobs ((taken log).map (·.2)) = (takenJobs log).map (·.2) := by
  induction log with
  | nil => rfl
  | cons e log ih =>
    simp only [jobs, taken, takenJobs] at ih ⊢
    cases e with
    | takes worker item =>
      cases item with
      | job j => simp [PoolItem.job?, ih]
      | exit => simpa [PoolItem.job?, List.filterMap_cons] using ih
    | _ => simpa using ih

end PoolEvent

open PoolEvent

/-! ## Steps -/

inductive PoolCall (s : PoolState κ J) : PoolEvent J → PoolState κ J → Prop
  | submit (who : κ) (j : J) : PoolCall s (.submits j) ⟨s.pool.lineUp who [.job j], s.leaving⟩
  | scale (who : κ) (count : UInt16) : PoolCall s (.scales count) (s.scaled who count)
  | shutdown (who : κ) : PoolCall s .shuts (s.shut who)

/-- What a pool does on its own. -/
inductive PoolWork (s : PoolState κ J) : PoolEvent J → PoolState κ J → Prop
  /-- Some caller puts an item in. -/
  | enter {line : List (PoolSender κ J)} {done : Option κ} {pool : Pool κ J} {item : PoolItem J}
      (order : line.Perm s.pool.senders) (goes : (s.pool.inLine line).letIn? = some (done, pool))
      (grows : pool.queue = s.pool.queue ++ [item]) : PoolWork s (.enters item) ⟨pool, s.leaving⟩
  | start {worker : Nat} (given : worker ∈ s.pool.unstarted) :
      PoolWork s (.starts worker) ⟨s.pool.start worker, s.leaving⟩
  /-- Some idle worker takes a job. -/
  | takeJob {line : List Nat} {worker : Nat} {j : J} {pool : Pool κ J}
      (order : line.Perm s.pool.idle)
      (takes : (s.pool.inTurn line).take? worker = some (.job j, pool)) :
      PoolWork s (.takes worker (.job j)) ⟨pool, s.leaving⟩
  /-- Some idle worker takes an exit. -/
  | takeExit {line : List Nat} {worker : Nat} {pool : Pool κ J} (order : line.Perm s.pool.idle)
      (takes : (s.pool.inTurn line).take? worker = some (.exit, pool)) :
      PoolWork s (.takes worker .exit) ⟨pool, worker :: s.leaving⟩
  | finish {worker : Nat} {j : J} (busy : (worker, j) ∈ s.pool.busy) :
      PoolWork s (.handles worker j) ⟨s.pool.finish worker, s.leaving⟩
  | leave {worker : Nat} (out : worker ∈ s.leaving) :
      PoolWork s (.leaves worker) ⟨s.pool.leave, s.leaving.erase worker⟩

/-- What has become of a new pool after a log. -/
inductive PoolRuns (capacity : Nat) : List (PoolEvent J) → PoolState κ J → Prop
  | new : PoolRuns capacity [] ⟨Pool.ofCapacity capacity, []⟩
  | step {log : List (PoolEvent J)} {s t : PoolState κ J} {e : PoolEvent J}
      (before : PoolRuns capacity log s) (step : PoolCall s e t ∨ PoolWork s e t) :
      PoolRuns capacity (log ++ [e]) t

variable {capacity : Nat} {log : List (PoolEvent J)} {s t : PoolState κ J} {e : PoolEvent J}

/-- The step that an event of a log stands for. -/
theorem PoolRuns.at_event {before after : List (PoolEvent J)} (runs : PoolRuns capacity log s)
    (split : log = before ++ e :: after) :
    ∃ s₀ t₀ : PoolState κ J, PoolRuns capacity before s₀ ∧ (PoolCall s₀ e t₀ ∨ PoolWork s₀ e t₀) := by
  induction runs generalizing after with
  | new => simp at split
  | @step log s t last runs step ih =>
    rcases List.eq_nil_or_concat after with rfl | ⟨rest, final, rfl⟩
    · obtain ⟨rfl, same⟩ := List.append_inj' split rfl
      cases same
      exact ⟨s, t, runs, step⟩
    · have same : log ++ [last] = (before ++ e :: rest) ++ [final] := by simpa using split
      exact ih (List.append_inj' same rfl).1

/-! ## What one step does -/

/-- A caller that lines up with exits brings no job. -/
theorem Pool.unsent_lineUp (p : Pool κ J) (who : κ) (n : Nat) :
    ∃ items, (p.lineUp who (List.replicate n .exit)).unsent = p.unsent ++ items ∧ jobs items = [] := by
  cases n with
  | zero => exact ⟨[], (List.append_nil _).symm, rfl⟩
  | succ n =>
    refine ⟨List.replicate (n + 1) .exit, ?_, ?_⟩
    · rw [Pool.unsent, Pool.lineUp, if_neg (by simp), List.flatMap_append, List.flatMap_singleton]
      rfl
    · exact List.filterMap_replicate_of_none rfl

namespace PoolCall

/-- A call changes the line, the target and the workers that have not started. -/
theorem same (call : PoolCall s e t) :
    t.pool.queue = s.pool.queue ∧ t.pool.idle = s.pool.idle ∧ t.pool.busy = s.pool.busy ∧
      t.leaving = s.leaving ∧ t.pool.capacity = s.pool.capacity ∧
      t.pool.headcount = s.pool.headcount := by
  cases call with
  | submit who j => exact ⟨rfl, rfl, rfl, rfl, rfl, rfl⟩
  | scale who count =>
    obtain ⟨line, lined⟩ := s.scaled_eq who count
    rcases s.pool.setWorkers_cases count with ⟨_, same⟩ | ⟨_, _, _, same⟩
    · rw [lined, same]
      exact ⟨rfl, rfl, rfl, rfl, rfl, rfl⟩
    · rw [lined, same]
      exact ⟨rfl, rfl, rfl, rfl, rfl, rfl⟩
  | shutdown who =>
    obtain ⟨line, lined⟩ := s.shut_eq who
    rw [lined]
    exact ⟨rfl, rfl, rfl, rfl, rfl, rfl⟩

theorem unsent (call : PoolCall s e t) :
    ∃ items, t.pool.unsent = s.pool.unsent ++ items ∧ jobs items = submitted [e] := by
  cases call with
  | submit who j => exact ⟨[.job j], List.flatMap_append, rfl⟩
  | scale who count =>
    obtain ⟨items, added, exits⟩ :=
      (s.pool.setWorkers count).2.2.unsent_lineUp who (s.pool.setWorkers count).2.1
    have same : (s.pool.setWorkers count).2.2.unsent = s.pool.unsent := by
      rcases s.pool.setWorkers_cases count with ⟨_, same⟩ | ⟨_, _, _, same⟩
      · rw [same]
      · rw [same]
        rfl
    exact ⟨items, by rw [← same]; exact added, exits⟩
  | shutdown who => exact s.pool.shutdown.2.unsent_lineUp who s.pool.shutdown.1

/-- A call gives out workers with new names, or none. -/
theorem ids (call : PoolCall s e t) : ∃ n, t.pool.issued = s.pool.issued + n ∧
    (s.ids ++ List.range' (1 + s.pool.issued) n).Perm t.ids := by
  cases call with
  | submit who j => exact ⟨0, rfl, by rw [List.range'_zero, List.append_nil]; exact .refl _⟩
  | scale who count =>
    obtain ⟨line, lined⟩ := s.scaled_eq who count
    rw [lined]
    exact s.ids_setWorkers count
  | shutdown who =>
    obtain ⟨line, lined⟩ := s.shut_eq who
    rw [lined]
    exact ⟨0, rfl, by rw [List.range'_zero, List.append_nil]; exact .refl _⟩

end PoolCall

namespace PoolWork

theorem of_takes {worker : Nat} {item : PoolItem J} (work : PoolWork s (.takes worker item) t) :
    worker ∈ s.pool.idle ∧ ∃ rest, s.pool.queue = item :: rest := by
  cases work with
  | @takeJob line _ j pool order takes =>
    obtain ⟨_, queue, hidle, hqueue, _⟩ := Pool.take?_job takes
    have first : worker ∈ (s.pool.inTurn line).idle := hidle ▸ List.mem_cons_self
    exact ⟨order.mem_iff.mp first, queue, hqueue⟩
  | @takeExit line _ pool order takes =>
    obtain ⟨_, queue, hidle, hqueue, _⟩ := Pool.take?_exit takes
    have first : worker ∈ (s.pool.inTurn line).idle := hidle ▸ List.mem_cons_self
    exact ⟨order.mem_iff.mp first, queue, hqueue⟩

theorem of_handles {worker : Nat} {j : J} (work : PoolWork s (.handles worker j) t) :
    (worker, j) ∈ s.pool.busy := by
  cases work with
  | finish busy => exact busy

/-- A worker is gone when it leaves. -/
theorem ids (work : PoolWork s e t) (distinct : s.Distinct) :
    t.pool.issued = s.pool.issued ∧ s.ids.Perm (left [e] ++ t.ids) := by
  cases work with
  | enter order goes grows =>
    obtain ⟨_, _, _, _, _, ⟨_, rfl⟩ | ⟨_, _, _, rfl⟩⟩ := Pool.letIn?_some goes
    · exact ⟨rfl, .refl _⟩
    · exact ⟨rfl, .refl _⟩
  | start given => exact ⟨by rw [Pool.start_of_mem given], PoolState.ids_start given⟩
  | takeJob order takes =>
    refine ⟨?_, PoolState.ids_takeJob order takes⟩
    obtain ⟨_, _, _, _, rfl⟩ := Pool.take?_job takes
    rfl
  | takeExit order takes =>
    refine ⟨?_, PoolState.ids_takeExit order takes⟩
    obtain ⟨_, _, _, _, rfl⟩ := Pool.take?_exit takes
    rfl
  | finish busy => exact ⟨by rw [Pool.finish_of_mem busy], PoolState.ids_finish distinct busy⟩
  | @leave worker out =>
    refine ⟨rfl, ?_⟩
    exact ((List.perm_cons_erase out).append_left _).trans List.perm_middle

/-- An item that gets into the queue no longer waits for room. -/
theorem unsent_enter {line : List (PoolSender κ J)} {done : Option κ} {pool : Pool κ J}
    {item : PoolItem J} (order : line.Perm s.pool.senders)
    (goes : (s.pool.inLine line).letIn? = some (done, pool))
    (grows : pool.queue = s.pool.queue ++ [item]) : s.pool.unsent.Perm (item :: pool.unsent) := by
  obtain ⟨_, caller, items, rest, heads, moved⟩ := Pool.letIn?_some goes
  have heads : line = ⟨caller, items⟩ :: rest := heads
  refine (order.symm.flatMap_right (·.items)).trans ?_
  rw [heads, List.flatMap_cons]
  rcases moved with ⟨_, rfl⟩ | ⟨first, more, rfl, rfl⟩
  · exact absurd grows (by simp [Pool.inLine])
  · have same : first = item := List.singleton_inj.mp (List.append_cancel_left grows)
    subst same
    have left : (rest ++ if more.isEmpty then [] else [PoolSender.mk caller more]).flatMap
        PoolSender.items = rest.flatMap PoolSender.items ++ more := by
      cases more with
      | nil => simp
      | cons second more => simp
    rw [Pool.unsent, left]
    exact List.perm_append_comm.cons first

/-- What waits for room and who has not started get fewer by what the event says. -/
theorem drains (work : PoolWork s e t) : s.pool.unsent.Perm (entered [e] ++ t.pool.unsent) ∧
    s.pool.unstarted.Perm (started [e] ++ t.pool.unstarted) := by
  cases work with
  | enter order goes grows =>
    refine ⟨unsent_enter order goes grows, ?_⟩
    obtain ⟨_, _, _, _, _, ⟨_, rfl⟩ | ⟨_, _, _, rfl⟩⟩ := Pool.letIn?_some goes
    · exact .refl _
    · exact .refl _
  | start given =>
    rw [Pool.start_of_mem given]
    exact ⟨.refl _, List.perm_cons_erase given⟩
  | takeJob order takes =>
    obtain ⟨_, _, _, _, rfl⟩ := Pool.take?_job takes
    exact ⟨.refl _, .refl _⟩
  | takeExit order takes =>
    obtain ⟨_, _, _, _, rfl⟩ := Pool.take?_exit takes
    exact ⟨.refl _, .refl _⟩
  | finish busy =>
    rw [Pool.finish_of_mem busy]
    exact ⟨.refl _, .refl _⟩
  | leave out => exact ⟨.refl _, .refl _⟩

end PoolWork

/-- What the event of a step says about the items in the queue and about those who took them. -/
structure PoolEffect (s : PoolState κ J) (e : PoolEvent J) (t : PoolState κ J) : Prop where
  queue : s.pool.queue ++ entered [e] = (taken [e]).map (·.2) ++ t.pool.queue
  busy : t.pool.busy =
    (s.pool.busy ++ takenJobs [e]).filter fun b => b.1 ∉ (handled [e]).map (·.1)
  finished : ∀ b ∈ handled [e], b ∈ s.pool.busy
  leaving : (retired [e] ++ s.leaving).Perm (left [e] ++ t.leaving)

theorem PoolCall.effect (call : PoolCall s e t) : PoolEffect s e t := by
  obtain ⟨queue, _, busy, leaving, _⟩ := call.same
  cases call with
  | submit | scale | shutdown =>
    exact ⟨(List.append_nil _).trans queue.symm, by simpa [takenJobs, handled] using busy,
      List.forall_mem_nil _, .of_eq leaving.symm⟩

theorem PoolWork.effect (work : PoolWork s e t) : PoolEffect s e t := by
  cases work with
  | enter order goes grows =>
    obtain ⟨_, _, _, _, _, ⟨_, rfl⟩ | ⟨_, _, _, rfl⟩⟩ := Pool.letIn?_some goes
    · exact ⟨grows.symm, by simp [takenJobs, handled, Pool.inLine], List.forall_mem_nil _, .refl _⟩
    · exact ⟨grows.symm, by simp [takenJobs, handled, Pool.inLine], List.forall_mem_nil _, .refl _⟩
  | start given =>
    rw [Pool.start_of_mem given]
    exact ⟨List.append_nil _, by simp [takenJobs, handled], List.forall_mem_nil _, .refl _⟩
  | takeJob order takes =>
    obtain ⟨_, _, _, hqueue, rfl⟩ := Pool.take?_job takes
    exact ⟨(List.append_nil _).trans hqueue, by simp [takenJobs, handled, Pool.inTurn],
      List.forall_mem_nil _, .refl _⟩
  | takeExit order takes =>
    obtain ⟨_, _, _, hqueue, rfl⟩ := Pool.take?_exit takes
    exact ⟨(List.append_nil _).trans hqueue, by simp [takenJobs, handled, Pool.inTurn],
      List.forall_mem_nil _, .refl _⟩
  | finish busy =>
    rw [Pool.finish_of_mem busy]
    exact ⟨List.append_nil _, by simp [takenJobs, handled],
      fun b only => List.mem_singleton.mp only ▸ busy, .refl _⟩
  | leave out =>
    exact ⟨List.append_nil _, by simp [takenJobs, handled, Pool.leave], List.forall_mem_nil _,
      List.perm_cons_erase out⟩

theorem PoolEffect.of_step (step : PoolCall s e t ∨ PoolWork s e t) : PoolEffect s e t :=
  step.elim PoolCall.effect PoolWork.effect

/-- What workers are on, and what a step takes, is what it finishes and what workers are on then. -/
theorem PoolEffect.held (effect : PoolEffect s e t) (distinct : s.Distinct) :
    (s.pool.busy ++ takenJobs [e]).Perm (handled [e] ++ t.pool.busy) := by
  rw [effect.busy]
  cases e with
  | handles worker j =>
    have busy : (worker, j) ∈ s.pool.busy := effect.finished _ List.mem_cons_self
    simpa [takenJobs, handled] using perm_cons_filter (·.1) busy distinct.busy
  | _ => simp [handled]

/-- The same for one worker, in order. -/
theorem PoolEffect.own (effect : PoolEffect s e t) (distinct : s.Distinct) (worker : Nat) :
    (s.pool.busy ++ takenJobs [e]).filter (·.1 = worker) =
      (handled [e]).filter (·.1 = worker) ++ t.pool.busy.filter (·.1 = worker) := by
  rw [effect.busy]
  cases e with
  | handles w j =>
    have busy : (w, j) ∈ s.pool.busy := effect.finished _ List.mem_cons_self
    by_cases same : w = worker
    · subst same
      simpa [takenJobs, handled] using distinct.busy_filter busy
    · suffices others : s.pool.busy.filter (·.1 = worker) =
          s.pool.busy.filter fun b => b.1 = worker && !decide (b.1 = w) by
        simpa [takenJobs, handled, same] using others
      refine List.filter_congr ?_
      intro b _
      by_cases here : b.1 = worker
      · simp [here, Ne.symm same]
      · simp [here]
  | _ => simp [handled]

/-! ## The log and the pool -/

namespace PoolRuns

theorem queued (runs : PoolRuns capacity log s) :
    entered log = (taken log).map (·.2) ++ s.pool.queue := by
  induction runs with
  | new => rfl
  | step before step ih =>
    rw [entered_append, taken_append, ih, List.append_assoc, (PoolEffect.of_step step).queue,
      List.map_append, List.append_assoc]

theorem distinct (runs : PoolRuns capacity log s) : s.Distinct := by
  induction runs with
  | new => exact ⟨List.nodup_nil, nofun⟩
  | @step log s t e before step ih =>
    rcases step with call | work
    · cases call with
      | submit who j => exact ih.lineUp who _
      | scale who count => exact (ih.setWorkers count).lineUp who _
      | shutdown who =>
        have shut : (PoolState.mk s.pool.shutdown.2 s.leaving).Distinct := ⟨ih.nodup, ih.issued⟩
        exact shut.lineUp who _
    · obtain ⟨issued, ids⟩ := work.ids ih
      exact ih.of_perm (left [e]) ids issued

/-- The workers that were given out are those that are not gone and those that left. -/
theorem given (runs : PoolRuns capacity log s) :
    (s.ids ++ left log).Perm (List.range' 1 s.pool.issued) := by
  induction runs with
  | new => exact .refl _
  | @step log s t e before step ih =>
    rw [left_append]
    rcases step with call | work
    · obtain ⟨n, issued, ids⟩ := call.ids
      have none_left : left [e] = [] := by cases call <;> rfl
      rw [none_left, List.append_nil, issued, ← List.range'_append_1]
      refine (ids.symm.append_right _).trans ?_
      rw [List.append_assoc]
      refine (List.perm_append_comm.append_left _).trans ?_
      rw [← List.append_assoc]
      exact ih.append_right _
    · obtain ⟨issued, ids⟩ := work.ids before.distinct
      rw [issued]
      refine List.Perm.trans ?_ ih
      refine List.Perm.trans ?_ (ids.symm.append_right _)
      rw [← List.append_assoc]
      refine List.perm_append_comm.trans ?_
      rw [← List.append_assoc]

/-- What a worker took is what it handled and what it is on, in order. -/
theorem own (runs : PoolRuns capacity log s) (worker : Nat) :
    (takenJobs log).filter (·.1 = worker) =
      (handled log).filter (·.1 = worker) ++ s.pool.busy.filter (·.1 = worker) := by
  induction runs with
  | new => rfl
  | step before step ih =>
    have own := (PoolEffect.of_step step).own before.distinct worker
    rw [List.filter_append] at own
    rw [takenJobs_append, handled_append, List.filter_append, List.filter_append, ih,
      List.append_assoc, own, List.append_assoc]

/-- The jobs that were taken are those that were handled and those that workers are on. -/
theorem held (runs : PoolRuns capacity log s) :
    (takenJobs log).Perm (handled log ++ s.pool.busy) := by
  induction runs with
  | new => exact .refl _
  | step before step ih =>
    rw [takenJobs_append, handled_append, List.append_assoc]
    refine (ih.append_right _).trans ?_
    rw [List.append_assoc]
    exact ((PoolEffect.of_step step).held before.distinct).append_left _

theorem unstarted (runs : PoolRuns capacity log s) :
    (started log ++ s.pool.unstarted).Perm (List.range' 1 s.pool.issued) := by
  induction runs with
  | new => exact .refl _
  | @step log s t e before step ih =>
    rw [started_append]
    rcases step with call | work
    · obtain ⟨n, issued, ids⟩ := call.ids
      obtain ⟨_, idle, busy, leaving, _⟩ := call.same
      have none_started : PoolEvent.started [e] = [] := by cases call <;> rfl
      have more : (s.pool.unstarted ++ List.range' (1 + s.pool.issued) n).Perm t.pool.unstarted := by
        refine List.perm_iff_count.mpr ?_
        intro worker
        have count := List.perm_iff_count.mp ids worker
        simp only [PoolState.ids, Pool.staff, idle, busy, leaving, List.count_append] at count
        rw [List.count_append]
        omega
      rw [none_started, List.append_nil, issued, ← List.range'_append_1]
      refine (more.symm.append_left _).trans ?_
      rw [← List.append_assoc]
      exact ih.append_right _
    · rw [(work.ids before.distinct).1, List.append_assoc]
      exact (work.drains.2.symm.append_left _).trans ih

/-- The workers that started are those that are at work or on their way out and those that left. -/
theorem started (runs : PoolRuns capacity log s) :
    (started log).Perm (s.onDuty ++ left log) := by
  have all := runs.unstarted.trans runs.given.symm
  have all := List.perm_append_comm.trans all
  rw [PoolState.ids_eq, List.append_assoc] at all
  exact (List.perm_append_left_iff _).mp all

/-- The workers that took an exit are those that are on their way out and those that left. -/
theorem retired (runs : PoolRuns capacity log s) : (retired log).Perm (s.leaving ++ left log) := by
  induction runs with
  | new => exact .refl _
  | step before step ih =>
    rw [retired_append, left_append]
    refine List.perm_iff_count.mpr ?_
    intro worker
    have earlier := List.perm_iff_count.mp ih worker
    have moved := List.perm_iff_count.mp (PoolEffect.of_step step).leaving worker
    simp only [List.count_append] at earlier moved ⊢
    omega

/-- No worker takes two exits, and one that took an exit is not at work. -/
theorem retired_nodup (runs : PoolRuns capacity log s) :
    (PoolEvent.retired log).Nodup ∧ ∀ worker ∈ PoolEvent.retired log, worker ∉ s.pool.staff := by
  have all : (s.pool.staff ++ (s.leaving ++ left log)).Nodup := by
    rw [← List.append_assoc]
    exact runs.given.nodup_iff.mpr List.nodup_range'
  refine ⟨runs.retired.nodup_iff.mpr all.of_append_right, ?_⟩
  intro worker gone there
  exact List.disjoint_of_nodup_append all there (runs.retired.mem_iff.mp gone)

/-- The jobs that callers came with are those that got into the queue and those that wait for
room. -/
theorem submitted (runs : PoolRuns capacity log s) :
    (submitted log).Perm (accepted log ++ jobs s.pool.unsent) := by
  induction runs with
  | new => exact .refl _
  | @step log s t e before step ih =>
    rw [submitted_append, accepted, entered_append, jobs_append]
    refine (ih.append_right _).trans ?_
    rw [List.append_assoc, List.append_assoc]
    refine List.Perm.append_left _ ?_
    rcases step with call | work
    · obtain ⟨items, more, new⟩ := call.unsent
      have none_entered : entered [e] = [] := by cases call <;> rfl
      rw [more, jobs_append, new, none_entered]
      exact .refl _
    · have none_submitted : PoolEvent.submitted [e] = [] := by cases work <;> rfl
      rw [none_submitted, List.append_nil, ← jobs_append]
      exact work.drains.1.filterMap _

end PoolRuns

end ChainIndex
