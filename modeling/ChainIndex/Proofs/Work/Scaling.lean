import ChainIndex.Proofs.Work.PoolRuns

/-!
# A pool follows its target

A scale call is ignored unless the count of live workers is the target.  That they are equal does not
mean that the last call is through: after a shutdown in the middle of a call that gives out workers,
they are equal while workers have not started and exits are in the queue.  What holds in every state
is a balance, `PoolState.Balanced`, and a call that is not ignored keeps it whether the last one is
through or not.

A shutdown takes its exits off the target, so from then on there is an exit for every worker, and a
pool that is not scaled again ends without workers.
-/

namespace ChainIndex

open PoolEvent

variable {κ J : Type} {capacity : Nat} {log : List (PoolEvent J)} {e : PoolEvent J}
  {s t : PoolState κ J}

/-- The pool was shut down, and not scaled since. -/
def PoolEvent.ShutForGood (log : List (PoolEvent J)) : Prop :=
  ∃ before after, log = before ++ .shuts :: after ∧ ∀ count, .scales count ∉ after

namespace PoolState

/-- The pool does nothing before the next call. -/
def AtRest (s : PoolState κ J) : Prop := ∀ e t, ¬ PoolWork s e t

/-- The steps until the pool is at rest, at most: an item that waits for room enters, is taken and
is done with. -/
def effort (s : PoolState κ J) : Nat :=
  s.pool.unstarted.length + 3 * s.pool.unsent.length + 2 * s.pool.queue.length +
    s.pool.busy.length + s.leaving.length

/-- While not as many workers live as the last call asked for, a scale call changes nothing. -/
theorem scaled_of_ne (s : PoolState κ J) (who : κ) (count : UInt16)
    (moving : s.pool.workers ≠ s.pool.target) : s.scaled who count = s := by
  rcases s.pool.setWorkers_cases count with ⟨_, same⟩ | ⟨settled, _⟩
  · rw [scaled, same]
    rfl
  · exact absurd settled moving

end PoolState

/-- No caller stands in line without an item. -/
def Pool.Filled (p : Pool κ J) : Prop := ∀ x ∈ p.senders, x.items ≠ []

theorem Pool.Filled.lineUp {p : Pool κ J} (h : p.Filled) (who : κ) (items : List (PoolItem J)) :
    (p.lineUp who items).Filled := by
  cases items with
  | nil => exact h
  | cons item rest =>
    intro x hx
    rcases List.mem_append.mp hx with hx | hx
    · exact h x hx
    · rw [List.mem_singleton.mp hx]
      exact List.cons_ne_nil item rest

/-! ## Calls and steps -/

namespace PoolCall

theorem balanced (call : PoolCall s e t) (h : s.Balanced) : t.Balanced := by
  cases call with
  | submit who j =>
    have moves : PoolState.Moves s ⟨s.pool.lineUp who [.job j], s.leaving⟩ :=
      PoolState.moves_lineUp who (by simp)
    refine moves.balanced rfl ?_ h
    have counted := h.counted
    have word := s.pool.headcount.value.toNat_lt
    rw [PoolState.length_onDuty]
    show s.pool.idle.length + s.pool.busy.length + s.leaving.length ≤ 65535
    omega
  | scale who count => exact h.scaled who count
  | shutdown who => exact h.shut who

theorem filled (call : PoolCall s e t) (h : s.pool.Filled) : t.pool.Filled := by
  cases call with
  | submit who j => exact h.lineUp who _
  | scale who count =>
    have same : (s.pool.setWorkers count).2.2.senders = s.pool.senders := by
      rcases s.pool.setWorkers_cases count with ⟨_, same⟩ | ⟨_, _, _, same⟩
      · rw [same]
      · rw [same]
    have before : (s.pool.setWorkers count).2.2.Filled := by
      rw [Pool.Filled, same]
      exact h
    exact before.lineUp who _
  | shutdown who => exact Pool.Filled.lineUp (p := s.pool.shutdown.2) h who _

end PoolCall

namespace PoolWork

theorem step (work : PoolWork s e t) : PoolStep s t ∨
    ∃ worker j, (worker, j) ∈ s.pool.busy ∧ t = ⟨s.pool.finish worker, s.leaving⟩ := by
  cases work with
  | enter order goes grows => exact .inl (.letIn order goes)
  | start given => exact .inl (.start given)
  | takeJob order takes => exact .inl (.takeJob order takes)
  | takeExit order takes => exact .inl (.takeExit order takes)
  | finish busy => exact .inr ⟨_, _, busy, rfl⟩
  | leave out => exact .inl (.leave out)

theorem moves (work : PoolWork s e t) (distinct : s.Distinct) :
    t.pool.target = s.pool.target ∧ t.pool.capacity = s.pool.capacity ∧ PoolState.Moves s t := by
  rcases work.step with step | ⟨worker, j, busy, rfl⟩
  · exact PoolState.moves_step step
  · refine ⟨?_, ?_, PoolState.moves_finish distinct.busy busy⟩
    · rw [Pool.finish_of_mem busy]
    · rw [Pool.finish_of_mem busy]

theorem filled (work : PoolWork s e t) (h : s.pool.Filled) : t.pool.Filled := by
  cases work with
  | @enter line done pool item order goes grows =>
    obtain ⟨_, caller, items, rest, heads, moved⟩ := Pool.letIn?_some goes
    have heads : line = ⟨caller, items⟩ :: rest := heads
    have others : ∀ x ∈ rest, x.items ≠ [] := by
      intro x hx
      exact h x (order.mem_iff.mp (heads ▸ List.mem_cons_of_mem _ hx))
    rcases moved with ⟨_, rfl⟩ | ⟨first, more, rfl, rfl⟩
    · exact others
    · intro x hx
      rcases List.mem_append.mp hx with hx | hx
      · exact others x hx
      · cases more with
        | nil => cases hx
        | cons second more =>
          rw [List.mem_singleton.mp hx]
          exact List.cons_ne_nil second more
  | start given =>
    rw [Pool.start_of_mem given]
    exact h
  | takeJob order takes =>
    obtain ⟨_, _, _, _, rfl⟩ := Pool.take?_job takes
    exact h
  | takeExit order takes =>
    obtain ⟨_, _, _, _, rfl⟩ := Pool.take?_exit takes
    exact h
  | finish busy =>
    rw [Pool.finish_of_mem busy]
    exact h
  | leave out => exact h

/-- Each step of a pool is one of those that were left. -/
theorem effort_lt (work : PoolWork s e t) (distinct : s.Distinct) : t.effort < s.effort := by
  have effect := work.effect
  have unsent := work.drains.1.length_eq
  have unstarted := work.drains.2.length_eq
  have queue := congrArg List.length effect.queue
  have held := (effect.held distinct).length_eq
  have leaving := effect.leaving.length_eq
  have happens : (taken [e]).length = (takenJobs [e]).length + (retired [e]).length ∧
      0 < (entered [e]).length + (started [e]).length + (taken [e]).length +
        (handled [e]).length + (left [e]).length := by
    cases work with
    | enter | start | takeJob | takeExit | finish | leave => exact ⟨rfl, Nat.one_pos⟩
  simp only [List.length_append, List.length_map] at unsent unstarted queue held leaving
  rw [PoolState.effort, PoolState.effort]
  omega

end PoolWork

/-- A step of a pool is one that has an event, as no caller stands in line without an item. -/
theorem PoolStep.work (step : PoolStep s t) (filled : s.pool.Filled) : ∃ e, PoolWork s e t := by
  cases step with
  | @letIn line done pool order goes =>
    obtain ⟨_, caller, items, rest, heads, ⟨empty, _⟩ | ⟨item, more, _, same⟩⟩ :=
      Pool.letIn?_some goes
    · have heads : line = ⟨caller, items⟩ :: rest := heads
      have there := order.mem_iff.mp (heads ▸ List.mem_cons_self)
      exact absurd empty (filled _ there)
    · exact ⟨.enters item, .enter order goes (by rw [same]; rfl)⟩
  | start given => exact ⟨_, .start given⟩
  | takeJob order takes => exact ⟨_, .takeJob order takes⟩
  | takeExit order takes => exact ⟨_, .takeExit order takes⟩
  | leave out => exact ⟨_, .leave out⟩

/-! ## Runs -/

namespace PoolRuns

theorem filled (runs : PoolRuns capacity log s) : s.pool.Filled := by
  induction runs with
  | new => exact nofun
  | step before step ih =>
    rcases step with call | work
    · exact call.filled ih
    · exact work.filled ih

theorem room (runs : PoolRuns capacity log s) : 0 < s.pool.capacity := by
  induction runs with
  | new => exact Nat.lt_of_lt_of_le Nat.one_pos (Nat.le_max_right capacity 1)
  | step before step ih =>
    rcases step with call | work
    · rw [call.same.2.2.2.2.1]
      exact ih
    · rw [(work.moves before.distinct).2.1]
      exact ih

theorem alive (runs : PoolRuns capacity log s) : alive log = s.onDuty.length := by
  have started := runs.started.length_eq
  rw [List.length_append] at started
  rw [PoolEvent.alive, started, Nat.add_sub_cancel]

theorem balanced (runs : PoolRuns capacity log s)
    (few : ∀ before, before <+: log → PoolEvent.alive before ≤ 65535) : s.Balanced := by
  induction runs with
  | new => exact ⟨rfl, rfl⟩
  | @step log s t e before step ih =>
    have last := few _ (List.prefix_refl _)
    have h := ih fun earlier first => few earlier (first.trans (List.prefix_append log [e]))
    rw [(before.step step).alive] at last
    rcases step with call | work
    · exact call.balanced h
    · obtain ⟨target, _, moves⟩ := work.moves before.distinct
      exact moves.balanced target last h

theorem target_of_shut (runs : PoolRuns capacity log s) (shut : ShutForGood log) :
    s.pool.target = 0 := by
  induction runs with
  | new =>
    obtain ⟨before, after, split, _⟩ := shut
    simp at split
  | @step log s t e before step ih =>
    obtain ⟨first, after, split, still⟩ := shut
    rcases List.eq_nil_or_concat after with rfl | ⟨rest, last, rfl⟩
    · obtain ⟨rfl, final⟩ := List.append_inj' split rfl
      obtain rfl := List.singleton_inj.mp final
      rcases step with call | work
      · cases call with
        | shutdown who =>
          obtain ⟨line, lined⟩ := s.shut_eq who
          rw [lined]
          rfl
      · cases work
    · have same : log ++ [e] = (first ++ .shuts :: rest) ++ [last] := by simpa using split
      obtain ⟨rfl, final⟩ := List.append_inj' same rfl
      obtain rfl := List.singleton_inj.mp final
      have zero := ih ⟨first, rest, rfl, fun count there => still count (by simp [there])⟩
      rcases step with call | work
      · cases call with
        | submit who j => exact zero
        | scale who count => exact absurd (by simp) (still count)
        | shutdown who =>
          obtain ⟨line, lined⟩ := s.shut_eq who
          rw [lined]
          rfl
      · rw [(work.moves before.distinct).1]
        exact zero

/-- A pool that has no target and nothing to do has no workers. -/
theorem none_at_rest (runs : PoolRuns capacity log s) (balanced : s.Balanced)
    (shut : s.pool.target = 0) (rest : s.AtRest) : s.ids = [] := by
  have stays (t : PoolState κ J) (step : PoolStep s t) : False := by
    obtain ⟨e, work⟩ := step.work runs.filled
    exact rest e t work
  have unstarted : s.pool.unstarted = [] := by
    refine List.eq_nil_iff_forall_not_mem.mpr ?_
    intro worker given
    exact stays _ (.start given)
  have leaving : s.leaving = [] := by
    refine List.eq_nil_iff_forall_not_mem.mpr ?_
    intro worker out
    exact stays _ (.leave out)
  have busy : s.pool.busy = [] := by
    refine List.eq_nil_iff_forall_not_mem.mpr ?_
    intro b busy
    exact rest (.handles b.1 b.2) _ (.finish busy)
  have idle : s.pool.idle = [] := by
    by_contra free
    have staffed := balanced.staffed
    have some_idle := List.length_pos_iff.mpr free
    simp only [unstarted, busy, shut, List.length_nil, UInt16.toNat_zero] at staffed
    have waits : s.pool.senders ≠ [] ∨ s.pool.queue ≠ [] := by
      by_contra! none_waits
      have none_out : s.pool.exits = 0 := by
        simp [Pool.exits, Pool.waiting, none_waits.1, none_waits.2]
      omega
    obtain ⟨t, step⟩ := PoolState.step_of_idle runs.room free waits
    exact stays t step
  simp [PoolState.ids, Pool.staff, unstarted, leaving, busy, idle]

end PoolRuns

/-- However calls and the steps of workers come, while at most 65535 workers are alive at once, the
count is that of the live workers, and the live workers and those that have not started are as many as
the target and the exits that have not ended a worker: they wait for room, are in the queue, or were
taken by a worker that is still counted.  So where every worker has started and no exit is out, the
live workers are as many as the target.  A scale call changes nothing while the count is not the
target.  A pool that was shut down and not scaled since has no workers when it is at rest, and each
step brings it nearer to that. -/
theorem workers_match_target (runs : PoolRuns capacity log s)
    (few : ∀ before, before <+: log → alive before ≤ 65535) :
    s.pool.workers.toNat = alive log ∧
    alive log + s.pool.unstarted.length =
      s.pool.target.toNat + (s.pool.exits + s.leaving.length) ∧
    (s.pool.unstarted = [] → s.pool.exits = 0 → s.leaving = [] →
      alive log = s.pool.target.toNat) ∧
    (∀ who count, s.pool.workers ≠ s.pool.target → s.scaled who count = s) ∧
    (ShutForGood log → s.AtRest → alive log = 0 ∧ s.pool.unstarted = []) ∧
    ∀ e t, PoolWork s e t → t.effort < s.effort := by
  have balanced := runs.balanced few
  have alive := runs.alive
  have onDuty := s.length_onDuty
  have counted := balanced.counted
  have staffed := balanced.staffed
  have balance : PoolEvent.alive log + s.pool.unstarted.length =
      s.pool.target.toNat + (s.pool.exits + s.leaving.length) := by
    omega
  refine ⟨?_, balance, ?_, s.scaled_of_ne, ?_, fun e t work => work.effort_lt runs.distinct⟩
  · rw [alive, onDuty]
    exact counted
  · intro started none_out none_leaving
    rw [started, none_out, none_leaving] at balance
    exact balance
  · intro shut rest
    have gone := runs.none_at_rest balanced (runs.target_of_shut shut) rest
    rw [PoolState.ids_eq, List.append_eq_nil_iff] at gone
    rw [alive, gone.2]
    exact ⟨rfl, gone.1⟩

/-- A pool is shut down before its worker has started, and scaled again at once.  When the first
worker has started, the count is the target, though one worker has not started and one exit is out. -/
theorem workers_match_target_of_early_shutdown :
    ∃ (log : List (PoolEvent Nat)) (s : PoolState Unit Nat), PoolRuns 4 log s ∧
      (∀ before, before <+: log → alive before ≤ 65535) ∧
      s.pool.workers = s.pool.target ∧ s.pool.unstarted = [2] ∧ s.pool.exits = 1 ∧
      s.pool.workers.toNat = alive log ∧
      alive log + s.pool.unstarted.length =
        s.pool.target.toNat + (s.pool.exits + s.leaving.length) := by
  have scaled : PoolRuns (κ := Unit) (J := Nat) 4 _ _ := PoolRuns.new.step (.inl (.scale () 1))
  have shut := scaled.step (.inl (.shutdown ()))
  have again := shut.step (.inl (.scale () 1))
  have started := again.step (e := .starts 1) (.inr (.start (by decide)))
  have few : ∀ before, before <+: [.scales 1, .shuts, .scales 1, .starts 1] →
      alive (J := Nat) before ≤ 65535 := by
    intro before first
    have short := first.length_le
    exact Nat.le_trans (alive_le_length before) (Nat.le_trans short (by decide))
  obtain ⟨counted, balance, _⟩ := workers_match_target started few
  exact ⟨_, _, started, few, rfl, rfl, rfl, counted, balance⟩

end ChainIndex
