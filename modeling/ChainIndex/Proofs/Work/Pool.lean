import Mathlib.Algebra.Order.BigOperators.Group.List
import Mathlib.Algebra.Order.Ring.Nat
import Mathlib.Data.List.Range
import ChainIndex.Proofs.Work.Keyed
import ChainIndex.Work.Pool

/-!
# Steps of a pool

`PoolStep` is what a pool does on its own, one step at a time: a caller puts an item in, a worker
starts, takes an item, or leaves.  Which caller and which worker it is does not matter, so every
order of callers and of idle workers is allowed.

A step moves items, and never makes or drops one.  This is said by weights: for any weight of the
items, what waits and what the workers hold weighs the same after a step
(`PoolStep.weight_eq`).  A weight of one for one item counts that item, a weight of one for every
exit counts the exits.
-/

namespace ChainIndex

namespace Pool

variable {κ J : Type}

/-! ## Weights -/

/-- The weight of the items that wait, with their callers or in the queue. -/
def waiting (weigh : PoolItem J → Nat) (p : Pool κ J) : Nat :=
  (p.senders.map fun s => (s.items.map weigh).sum).sum + (p.queue.map weigh).sum

/-- The weight of the jobs that workers are on. -/
def held (weigh : Nat → J → Nat) (p : Pool κ J) : Nat := (p.busy.map fun b => weigh b.1 b.2).sum

/-- The workers that were given out and have not taken an exit. -/
def staff (p : Pool κ J) : List Nat := p.unstarted ++ (p.idle ++ p.busy.map (·.1))

/-- The pool with its senders in another order. -/
def inLine (p : Pool κ J) (senders : List (PoolSender κ J)) : Pool κ J := { p with senders := senders }

/-- The pool with its idle workers in another order. -/
def inTurn (p : Pool κ J) (idle : List Nat) : Pool κ J := { p with idle := idle }

variable {p p' : Pool κ J}

/-- A caller that lines up changes the line only. -/
theorem lineUp_eq (p : Pool κ J) (caller : κ) (items : List (PoolItem J)) :
    ∃ line, p.lineUp caller items = p.inLine line := by
  cases items with
  | nil => exact ⟨p.senders, rfl⟩
  | cons item rest => exact ⟨_, rfl⟩

theorem waiting_lineUp (weigh : PoolItem J → Nat) (p : Pool κ J) (caller : κ)
    (items : List (PoolItem J)) :
    (p.lineUp caller items).waiting weigh = p.waiting weigh + (items.map weigh).sum := by
  cases items with
  | nil => rfl
  | cons item rest =>
    simp [lineUp, waiting]
    omega

theorem waiting_inLine {line : List (PoolSender κ J)} (order : line.Perm p.senders)
    (weigh : PoolItem J → Nat) : (p.inLine line).waiting weigh = p.waiting weigh := by
  have same := (order.map fun s => (s.items.map weigh).sum).sum_nat
  simp only [waiting, inLine, same]

theorem held_congr {weigh weigh' : Nat → J → Nat}
    (h : ∀ b ∈ p.busy, weigh b.1 b.2 = weigh' b.1 b.2) : p.held weigh = p.held weigh' := by
  rw [held, held, List.map_congr_left h]

/-! ## What the functions do -/

theorem letIn?_some {done : Option κ} (h : p.letIn? = some (done, p')) :
    p.queue.length < p.capacity ∧ ∃ caller items rest, p.senders = ⟨caller, items⟩ :: rest ∧
      ((items = [] ∧ p' = { p with senders := rest }) ∨
        ∃ item more, items = item :: more ∧ p' = { p with
          queue := p.queue ++ [item]
          senders := rest ++ if more.isEmpty then [] else [⟨caller, more⟩] }) := by
  rw [letIn?] at h
  split at h
  case isTrue => cases h
  case isFalse room =>
    refine ⟨Nat.lt_of_not_le room, ?_⟩
    split at h
    case h_1 => cases h
    case h_2 caller rest line =>
      cases h
      exact ⟨caller, [], rest, line, .inl ⟨rfl, rfl⟩⟩
    case h_3 caller item rest line =>
      cases h
      exact ⟨caller, [item], rest, line, .inr ⟨item, [], rfl, by simp⟩⟩
    case h_4 caller item items rest more line =>
      cases h
      refine ⟨caller, item :: items, rest, line, .inr ⟨item, items, rfl, ?_⟩⟩
      cases items with
      | nil => exact (more rfl).elim
      | cons next items => rfl

/-- Where there is room, a caller in line puts an item in. -/
theorem letIn?_of_room (room : p.queue.length < p.capacity) (line : p.senders ≠ []) :
    ∃ done p', p.letIn? = some (done, p') := by
  rw [letIn?, if_neg (Nat.not_le_of_lt room)]
  split
  case h_1 empty => exact absurd empty line
  case h_2 => exact ⟨_, _, rfl⟩
  case h_3 => exact ⟨_, _, rfl⟩
  case h_4 => exact ⟨_, _, rfl⟩

theorem take?_job {worker : Nat} {j : J} (h : p.take? worker = some (.job j, p')) :
    ∃ idle queue, p.idle = worker :: idle ∧ p.queue = .job j :: queue ∧
      p' = { p with idle := idle, queue := queue, busy := p.busy ++ [(worker, j)] } := by
  rw [take?] at h
  split at h
  case h_2 => cases h
  case h_1 first idle item queue hidle hqueue =>
    split at h
    case isFalse => cases h
    case isTrue turn =>
      cases item with
      | job j' =>
        cases h
        exact ⟨idle, queue, turn ▸ hidle, hqueue, rfl⟩
      | exit => cases h

theorem take?_exit {worker : Nat} (h : p.take? worker = some (.exit, p')) :
    ∃ idle queue, p.idle = worker :: idle ∧ p.queue = .exit :: queue ∧
      p' = { p with idle := idle, queue := queue } := by
  rw [take?] at h
  split at h
  case h_2 => cases h
  case h_1 first idle item queue hidle hqueue =>
    split at h
    case isFalse => cases h
    case isTrue turn =>
      cases item with
      | job j => cases h
      | exit =>
        cases h
        exact ⟨idle, queue, turn ▸ hidle, hqueue, rfl⟩

theorem take?_of_head {worker : Nat} {idle : List Nat} {item : PoolItem J}
    {queue : List (PoolItem J)} (hidle : p.idle = worker :: idle) (hqueue : p.queue = item :: queue) :
    ∃ p', p.take? worker = some (item, p') := by
  rw [take?, hidle, hqueue]
  simp only [if_true]
  exact ⟨_, rfl⟩

/-- A scale call is ignored, or gives out workers and puts exits in up to its count. -/
theorem setWorkers_cases (p : Pool κ J) (count : UInt16) :
    p.workers ≠ p.target ∧ p.setWorkers count = ([], 0, p) ∨
      p.workers = p.target ∧ ∃ spawned : List Nat,
        spawned.length = count.toNat - p.workers.toNat ∧
        p.setWorkers count = (spawned, p.workers.toNat - count.toNat, { p with
          target := count
          issued := p.issued + spawned.length
          unstarted := p.unstarted ++ spawned }) := by
  by_cases settled : p.workers = p.target
  · refine .inr ⟨settled, _, ?_, by rw [setWorkers, if_neg (not_not_intro settled)]⟩
    rw [List.length_map, List.length_range]
  · exact .inl ⟨settled, by rw [setWorkers, if_pos settled]⟩

theorem start_of_mem {worker : Nat} (h : worker ∈ p.unstarted) :
    p.start worker = { p with
      unstarted := p.unstarted.erase worker
      headcount := p.headcount.increase
      idle := p.idle ++ [worker] } := by
  rw [start, if_pos (List.contains_iff_mem.mpr h)]

theorem finish_of_mem {worker : Nat} {j : J} (h : (worker, j) ∈ p.busy) :
    p.finish worker = { p with
      busy := p.busy.filter fun b => b.1 ≠ worker
      idle := p.idle ++ [worker] } := by
  rw [finish, if_pos]
  exact List.any_eq_true.mpr ⟨_, h, by simp⟩

/-! ## What the functions move -/

theorem waiting_letIn {done : Option κ} (h : p.letIn? = some (done, p'))
    (weigh : PoolItem J → Nat) : p'.waiting weigh = p.waiting weigh := by
  obtain ⟨_, caller, items, rest, line, ⟨rfl, rfl⟩ | ⟨item, more, rfl, rfl⟩⟩ := letIn?_some h
  · simp [waiting, line]
  · cases more with
    | nil =>
      simp [waiting, line]
      omega
    | cons next more =>
      simp [waiting, line]
      omega

theorem waiting_takeJob {worker : Nat} {j : J} (h : p.take? worker = some (.job j, p'))
    (weigh : PoolItem J → Nat) : p.waiting weigh = p'.waiting weigh + weigh (.job j) := by
  obtain ⟨_, queue, _, hqueue, rfl⟩ := take?_job h
  simp [waiting, hqueue]
  omega

theorem waiting_takeExit {worker : Nat} (h : p.take? worker = some (.exit, p'))
    (weigh : PoolItem J → Nat) : p.waiting weigh = p'.waiting weigh + weigh .exit := by
  obtain ⟨_, queue, _, hqueue, rfl⟩ := take?_exit h
  simp [waiting, hqueue]
  omega

theorem held_takeJob {worker : Nat} {j : J} (h : p.take? worker = some (.job j, p'))
    (weigh : Nat → J → Nat) : p'.held weigh = p.held weigh + weigh worker j := by
  obtain ⟨_, _, _, _, rfl⟩ := take?_job h
  simp [held]

theorem held_finish {worker : Nat} {j : J} (h : (worker, j) ∈ p.busy)
    (distinct : (p.busy.map (·.1)).Nodup) (weigh : Nat → J → Nat) :
    p.held weigh = (p.finish worker).held weigh + weigh worker j := by
  rw [finish_of_mem h, held, held, ((perm_cons_filter (·.1) h distinct).map _).sum_nat, List.map_cons,
    List.sum_cons, Nat.add_comm]

/-- Where the weight of one worker changes, the weight of all jobs changes by as much. -/
theorem held_change {worker : Nat} {j : J} (h : (worker, j) ∈ p.busy)
    (distinct : (p.busy.map (·.1)).Nodup) {weigh weigh' : Nat → J → Nat}
    (same : ∀ w, w ≠ worker → ∀ j, weigh w j = weigh' w j) :
    p.held weigh + weigh' worker j = p.held weigh' + weigh worker j := by
  let others := p.busy.filter fun b => b.1 ≠ worker
  have split (f : Nat → J → Nat) : p.held f = f worker j + (others.map fun b => f b.1 b.2).sum := by
    rw [held, ((perm_cons_filter (·.1) h distinct).map _).sum_nat, List.map_cons, List.sum_cons]
  have rest : (others.map fun b => weigh b.1 b.2) = others.map fun b => weigh' b.1 b.2 :=
    List.map_congr_left fun b hb => same b.1 (by simpa using (List.mem_filter.mp hb).2) b.2
  rw [split weigh, split weigh', rest]
  omega

end Pool

/-! ## Steps -/

/-- A pool, and the workers that took an exit and are still counted. -/
structure PoolState (κ J : Type) where
  pool : Pool κ J
  leaving : List Nat := []

variable {κ J : Type}

/-- What a pool does on its own, apart from finishing a job. -/
inductive PoolStep (s : PoolState κ J) : PoolState κ J → Prop
  /-- Some caller puts an item in. -/
  | letIn {line : List (PoolSender κ J)} {done : Option κ} {pool : Pool κ J}
      (order : line.Perm s.pool.senders) (goes : (s.pool.inLine line).letIn? = some (done, pool)) :
      PoolStep s { s with pool := pool }
  /-- A worker starts. -/
  | start {worker : Nat} (given : worker ∈ s.pool.unstarted) :
      PoolStep s { s with pool := s.pool.start worker }
  /-- Some idle worker takes a job. -/
  | takeJob {line : List Nat} {worker : Nat} {j : J} {pool : Pool κ J}
      (order : line.Perm s.pool.idle)
      (takes : (s.pool.inTurn line).take? worker = some (.job j, pool)) :
      PoolStep s { s with pool := pool }
  /-- Some idle worker takes an exit. -/
  | takeExit {line : List Nat} {worker : Nat} {pool : Pool κ J} (order : line.Perm s.pool.idle)
      (takes : (s.pool.inTurn line).take? worker = some (.exit, pool)) :
      PoolStep s ⟨pool, worker :: s.leaving⟩
  /-- A worker that took an exit is no longer counted. -/
  | leave {worker : Nat} (out : worker ∈ s.leaving) :
      PoolStep s ⟨s.pool.leave, s.leaving.erase worker⟩

namespace PoolState

variable {s t : PoolState κ J}

/-- All workers that were given out and are not gone. -/
def ids (s : PoolState κ J) : List Nat := s.pool.staff ++ s.leaving

/-- No two workers have one name, and each has a name that was given out. -/
structure Distinct (s : PoolState κ J) : Prop where
  nodup : s.ids.Nodup
  issued : ∀ w ∈ s.ids, w ≤ s.pool.issued

namespace Distinct

theorem busy (h : s.Distinct) : (s.pool.busy.map (·.1)).Nodup :=
  h.nodup.of_append_left.of_append_right.of_append_right

theorem idle_not_busy (h : s.Distinct) {worker : Nat} {j : J} (idle : worker ∈ s.pool.idle)
    (busy : (worker, j) ∈ s.pool.busy) : False :=
  List.disjoint_of_nodup_append h.nodup.of_append_left.of_append_right idle
    (List.mem_map_of_mem busy)

/-- A worker is on one job at a time. -/
theorem busy_filter (h : s.Distinct) {b : Nat × J} (busy : b ∈ s.pool.busy) :
    s.pool.busy.filter (·.1 = b.1) = [b] := by
  have split := (perm_cons_filter (·.1) busy h.busy).filter (·.1 = b.1)
  simpa using split

/-- The workers may change their places, and they may go. -/
theorem of_perm (h : s.Distinct) (gone : List Nat) (left : s.ids.Perm (gone ++ t.ids))
    (issued : t.pool.issued = s.pool.issued) : t.Distinct where
  nodup := (left.nodup_iff.mp h.nodup).of_append_right
  issued w hw := issued ▸ h.issued w (left.mem_iff.mpr (List.mem_append_right gone hw))

end Distinct

/-- A worker that starts is idle. -/
theorem ids_start {worker : Nat} (given : worker ∈ s.pool.unstarted) :
    s.ids.Perm (PoolState.mk (s.pool.start worker) s.leaving).ids := by
  rw [Pool.start_of_mem given]
  refine List.Perm.append_right s.leaving ?_
  show (s.pool.unstarted ++ _).Perm (s.pool.unstarted.erase worker ++ _)
  refine ((List.perm_cons_erase given).append_right _).trans ?_
  rw [List.cons_append, List.append_assoc]
  refine List.perm_middle.symm.trans (List.Perm.append_left _ ?_)
  exact List.perm_middle.symm.trans (by simp)

/-- A worker that takes a job is busy. -/
theorem ids_takeJob {line : List Nat} {worker : Nat} {j : J} {pool : Pool κ J}
    (order : line.Perm s.pool.idle)
    (takes : (s.pool.inTurn line).take? worker = some (.job j, pool)) :
    s.ids.Perm (PoolState.mk pool s.leaving).ids := by
  obtain ⟨idle, _, hidle, _, rfl⟩ := Pool.take?_job takes
  refine List.Perm.append_right s.leaving (List.Perm.append_left _ ?_)
  refine (order.symm.append_right _).trans ?_
  have hidle : line = worker :: idle := hidle
  rw [hidle]
  show (worker :: idle ++ s.pool.busy.map (·.1)).Perm
    (idle ++ (s.pool.busy ++ [(worker, j)]).map (·.1))
  rw [List.map_append, ← List.append_assoc]
  exact (List.perm_append_singleton worker _).symm

/-- A worker that takes an exit is on its way out. -/
theorem ids_takeExit {line : List Nat} {worker : Nat} {pool : Pool κ J}
    (order : line.Perm s.pool.idle)
    (takes : (s.pool.inTurn line).take? worker = some (.exit, pool)) :
    s.ids.Perm (PoolState.mk pool (worker :: s.leaving)).ids := by
  obtain ⟨idle, _, hidle, _, rfl⟩ := Pool.take?_exit takes
  refine List.Perm.trans ?_ List.perm_middle.symm
  rw [← List.cons_append]
  refine List.Perm.append_right s.leaving ?_
  refine List.Perm.trans (List.Perm.append_left _ ?_) List.perm_middle
  refine (order.symm.append_right _).trans ?_
  have hidle : line = worker :: idle := hidle
  rw [hidle]
  rfl

/-- A worker that is done is idle. -/
theorem ids_finish {worker : Nat} {j : J} (h : s.Distinct) (busy : (worker, j) ∈ s.pool.busy) :
    s.ids.Perm (PoolState.mk (s.pool.finish worker) s.leaving).ids := by
  rw [Pool.finish_of_mem busy]
  refine List.Perm.append_right s.leaving (List.Perm.append_left _ ?_)
  refine (((perm_cons_filter (·.1) busy h.busy).map (·.1)).append_left s.pool.idle).trans ?_
  show (s.pool.idle ++ worker :: _).Perm (s.pool.idle ++ [worker] ++ _)
  rw [List.append_assoc, List.singleton_append]

/-- A scale call gives out workers with the next names, or none. -/
theorem ids_setWorkers (s : PoolState κ J) (count : UInt16) :
    ∃ n, (s.pool.setWorkers count).2.2.issued = s.pool.issued + n ∧
      (s.ids ++ List.range' (1 + s.pool.issued) n).Perm
        (PoolState.mk (s.pool.setWorkers count).2.2 s.leaving).ids := by
  rw [Pool.setWorkers]
  split
  case isTrue => exact ⟨0, rfl, by rw [List.range'_zero, List.append_nil]⟩
  case isFalse =>
    refine ⟨count.toNat - s.pool.workers.toNat, by simp, ?_⟩
    rw [List.range'_eq_map_range, Nat.add_comm 1]
    refine List.perm_iff_count.mpr ?_
    intro worker
    simp only [ids, Pool.staff, List.count_append]
    omega

end PoolState

namespace PoolStep

variable {s t : PoolState κ J}

/-- What waits and what the workers hold weighs the same after a step, where the job of a worker
weighs what it weighed in the queue. -/
theorem weight_eq (step : PoolStep s t) {weigh : PoolItem J → Nat} {hold : Nat → J → Nat}
    (exit : weigh .exit = 0) (fresh : ∀ w ∈ s.pool.idle, ∀ j, hold w j = weigh (.job j)) :
    t.pool.waiting weigh + t.pool.held hold = s.pool.waiting weigh + s.pool.held hold := by
  cases step with
  | @letIn line done pool order goes =>
    have held : pool.held hold = s.pool.held hold := by
      obtain ⟨_, _, _, _, _, ⟨_, rfl⟩ | ⟨_, _, _, rfl⟩⟩ := Pool.letIn?_some goes
      · rfl
      · rfl
    rw [held, Pool.waiting_letIn goes, Pool.waiting_inLine order]
  | start given =>
    rw [Pool.start_of_mem given]
    rfl
  | @takeJob line worker j pool order takes =>
    have waits : s.pool.waiting weigh = _ := Pool.waiting_takeJob takes weigh
    have holds : pool.held hold = s.pool.held hold + _ := Pool.held_takeJob takes hold
    obtain ⟨idle, _, hidle, _, _⟩ := Pool.take?_job takes
    have hidle : line = worker :: idle := hidle
    have same := fresh worker (order.mem_iff.mp (hidle ▸ List.mem_cons_self)) j
    show pool.waiting weigh + pool.held hold = _
    rw [waits, holds, same]
    omega
  | @takeExit line worker pool order takes =>
    have waits : s.pool.waiting weigh = _ := Pool.waiting_takeExit takes weigh
    rw [waits, exit, Nat.add_zero]
    obtain ⟨_, _, _, _, rfl⟩ := Pool.take?_exit takes
    rfl
  | leave => rfl

/-- A worker that is on a job stays on it. -/
theorem busy_mono (step : PoolStep s t) {b : Nat × J} (busy : b ∈ s.pool.busy) : b ∈ t.pool.busy := by
  cases step with
  | letIn _ goes =>
    obtain ⟨_, _, _, _, _, ⟨_, rfl⟩ | ⟨_, _, _, rfl⟩⟩ := Pool.letIn?_some goes
    · exact busy
    · exact busy
  | start given =>
    rw [Pool.start_of_mem given]
    exact busy
  | takeJob _ takes =>
    obtain ⟨_, _, _, _, rfl⟩ := Pool.take?_job takes
    exact List.mem_append_left _ busy
  | takeExit _ takes =>
    obtain ⟨_, _, _, _, rfl⟩ := Pool.take?_exit takes
    exact busy
  | leave => exact busy

theorem distinct (step : PoolStep s t) (h : s.Distinct) : t.Distinct := by
  cases step with
  | letIn order goes =>
    obtain ⟨_, _, _, _, _, ⟨_, rfl⟩ | ⟨_, _, _, rfl⟩⟩ := Pool.letIn?_some goes
    · exact ⟨h.nodup, h.issued⟩
    · exact ⟨h.nodup, h.issued⟩
  | start given =>
    exact h.of_perm [] (PoolState.ids_start given) (by rw [Pool.start_of_mem given])
  | takeJob order takes =>
    refine h.of_perm [] (PoolState.ids_takeJob order takes) ?_
    obtain ⟨_, _, _, _, rfl⟩ := Pool.take?_job takes
    rfl
  | takeExit order takes =>
    refine h.of_perm [] (PoolState.ids_takeExit order takes) ?_
    obtain ⟨_, _, _, _, rfl⟩ := Pool.take?_exit takes
    rfl
  | @leave worker out =>
    refine h.of_perm [worker] ?_ rfl
    exact ((List.perm_cons_erase out).append_left _).trans List.perm_middle

end PoolStep

/-! ## Calls from outside -/

namespace PoolState.Distinct

variable {s : PoolState κ J}

theorem lineUp (h : s.Distinct) (caller : κ) (items : List (PoolItem J)) :
    (PoolState.mk (s.pool.lineUp caller items) s.leaving).Distinct := by
  cases items with
  | nil => exact h
  | cons item rest => exact ⟨h.nodup, h.issued⟩

/-- Workers that a scale call gives out get names of their own. -/
theorem setWorkers (h : s.Distinct) (count : UInt16) :
    (PoolState.mk (s.pool.setWorkers count).2.2 s.leaving).Distinct := by
  obtain ⟨n, issued, moved⟩ := s.ids_setWorkers count
  have apart : s.ids.Disjoint (List.range' (1 + s.pool.issued) n) := by
    intro w known hw
    have upper := h.issued w known
    have lower := (List.mem_range'_1.mp hw).1
    omega
  refine ⟨moved.nodup_iff.mp (h.nodup.append List.nodup_range' apart), ?_⟩
  intro w hw
  rw [issued]
  rcases List.mem_append.mp (moved.mem_iff.mpr hw) with hw | hw
  · exact Nat.le_trans (h.issued w hw) (Nat.le_add_right _ _)
  · have inside := (List.mem_range'_1.mp hw).2
    omega

end PoolState.Distinct

end ChainIndex
