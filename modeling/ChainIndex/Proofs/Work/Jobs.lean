import ChainIndex.Proofs.Work.PoolRuns

/-!
# A pool keeps its jobs

Each job that got into the queue of a pool is handled, or a worker is on it, or it is still in the
queue, and it is so once.  The queue is first in, first out, for exits as for jobs, so a pool may be
scaled to zero with jobs in the queue and back up, or be shut down, and no job is lost or taken out
of turn.
-/

namespace ChainIndex

open PoolEvent

variable {κ J : Type} {capacity : Nat} {log : List (PoolEvent J)} {s : PoolState κ J}

namespace PoolEvent

/-- Where an item is taken, exactly the items that entered before it have been taken. -/
def InTurn (log : List (PoolEvent J)) : Prop :=
  ∀ before worker item after, log = before ++ .takes worker item :: after →
    ∃ earlier between, before = earlier ++ .enters item :: between ∧
      entered earlier = (taken before).map (·.2)

/-- A worker takes an exit when it has handled all that it took, and then no item any more. -/
def EndsWorkers (log : List (PoolEvent J)) : Prop :=
  ∀ before worker after, log = before ++ .takes worker .exit :: after →
    (takenJobs before).filter (·.1 = worker) = (handled before).filter (·.1 = worker) ∧
      (∀ item, .takes worker item ∉ after) ∧ ∀ j, .handles worker j ∉ after

/-- An item that enters after a shutdown is taken after all that entered before the shutdown. -/
def ShutsInTurn (log : List (PoolEvent J)) : Prop :=
  ∀ before between worker item after,
    log = before ++ .shuts :: between ++ .takes worker item :: after →
    (entered before).length ≤ (taken (before ++ .shuts :: between)).length →
    entered before <+: (taken (before ++ .shuts :: between)).map (·.2)

end PoolEvent

namespace PoolRuns

theorem inTurn (runs : PoolRuns capacity log s) : InTurn log := by
  intro before worker item after split
  obtain ⟨s₀, t₀, runs₀, call | work⟩ := runs.at_event split
  · cases call
  · obtain ⟨_, rest, hqueue⟩ := work.of_takes
    have queued := runs₀.queued
    rw [hqueue] at queued
    obtain ⟨first, last, rfl, same, next⟩ := List.filterMap_eq_append_iff.mp queued
    obtain ⟨skipped, e, between, rfl, silent, found, _⟩ := List.filterMap_eq_cons_iff.mp next
    have enters : e = .enters item := by
      cases e <;> simp_all
    refine ⟨first ++ skipped, between, by rw [enters, List.append_assoc], ?_⟩
    rw [entered_append, show entered skipped = [] from List.filterMap_eq_nil_iff.mpr silent,
      List.append_nil]
    exact same

/-- A worker that took an exit takes and handles nothing any more. -/
theorem silent_after_exit {before after : List (PoolEvent J)} {e : PoolEvent J} {worker : Nat}
    (runs : PoolRuns capacity log s) (split : log = before ++ e :: after)
    (gone : worker ∈ PoolEvent.retired before) :
    (∀ item, e ≠ .takes worker item) ∧ ∀ j, e ≠ .handles worker j := by
  obtain ⟨s₀, t₀, runs₀, step⟩ := runs.at_event split
  have off := runs₀.retired_nodup.2 worker gone
  constructor
  · rintro item rfl
    rcases step with call | work
    · cases call
    · refine off (List.mem_append_right _ (List.mem_append_left _ ?_))
      exact work.of_takes.1
  · rintro j rfl
    rcases step with call | work
    · cases call
    · refine off (List.mem_append_right _ (List.mem_append_right _ ?_))
      exact List.mem_map_of_mem work.of_handles

theorem endsWorkers (runs : PoolRuns capacity log s) : EndsWorkers log := by
  intro before worker after split
  refine ⟨?_, ?_, ?_⟩
  · obtain ⟨s₀, t₀, runs₀, call | work⟩ := runs.at_event split
    · cases call
    · have free : s₀.pool.busy.filter (·.1 = worker) = [] := by
        refine List.filter_eq_nil_iff.mpr ?_
        intro b busy same
        have same : b.1 = worker := by simpa using same
        subst same
        exact runs₀.distinct.idle_not_busy work.of_takes.1 busy
      have own := runs₀.own worker
      rwa [free, List.append_nil] at own
  · intro item there
    obtain ⟨first, last, rfl⟩ := List.append_of_mem there
    rw [← List.cons_append, ← List.append_assoc] at split
    have gone : worker ∈ PoolEvent.retired (before ++ .takes worker .exit :: first) := by
      simp [PoolEvent.retired]
    exact (runs.silent_after_exit split gone).1 item rfl
  · intro j there
    obtain ⟨first, last, rfl⟩ := List.append_of_mem there
    rw [← List.cons_append, ← List.append_assoc] at split
    have gone : worker ∈ PoolEvent.retired (before ++ .takes worker .exit :: first) := by
      simp [PoolEvent.retired]
    exact (runs.silent_after_exit split gone).2 j rfl

theorem shutsInTurn (runs : PoolRuns capacity log s) : ShutsInTurn log := by
  intro before between worker item after split beyond
  obtain ⟨s₀, t₀, runs₀, _⟩ := runs.at_event split
  have first : entered before <+: entered (before ++ .shuts :: between) :=
    (List.prefix_append before _).filterMap _
  have second : (taken (before ++ .shuts :: between)).map (·.2) <+:
      entered (before ++ .shuts :: between) := ⟨s₀.pool.queue, runs₀.queued.symm⟩
  refine List.prefix_of_prefix_length_le first second ?_
  rwa [List.length_map]

/-- The jobs that entered the queue are those that were handled, those that workers are on and
those that are still in it. -/
theorem accepted (runs : PoolRuns capacity log s) : (accepted log).Perm
    ((handled log).map (·.2) ++ (s.pool.busy.map (·.2) ++ jobs s.pool.queue)) := by
  rw [PoolEvent.accepted, runs.queued, jobs_append, jobs_taken, ← List.append_assoc,
    ← List.map_append]
  exact (runs.held.map _).append_right _

end PoolRuns

/-- However calls and the steps of workers come, a pool keeps its jobs.  A job that a caller came
with waits for room or is accepted.  The accepted jobs are those that were handled, those that
workers are on, and those in the queue.  A worker is on one job at a time, which is the last that it
took, and has taken no exit.  Items are taken in the order in which they entered the queue.  Each
exit ends one worker, which has handled all that it took, and what entered before a shutdown is taken
before the exits that come with it. -/
theorem pool_keeps_jobs (runs : PoolRuns capacity log s) :
    (submitted log).Perm (accepted log ++ jobs s.pool.unsent) ∧
    (accepted log).Perm
      ((handled log).map (·.2) ++ (s.pool.busy.map (·.2) ++ jobs s.pool.queue)) ∧
    (s.pool.busy.map (·.1)).Nodup ∧
    (∀ b ∈ s.pool.busy, b.1 ∈ started log ∧ b.1 ∉ retired log ∧
      (takenJobs log).filter (·.1 = b.1) = (handled log).filter (·.1 = b.1) ++ [b]) ∧
    entered log = (taken log).map (·.2) ++ s.pool.queue ∧ InTurn log ∧
    (retired log).Nodup ∧ EndsWorkers log ∧ ShutsInTurn log := by
  refine ⟨runs.submitted, runs.accepted, runs.distinct.busy, ?_, runs.queued, runs.inTurn,
    runs.retired_nodup.1, runs.endsWorkers, runs.shutsInTurn⟩
  intro b busy
  have name : b.1 ∈ s.pool.busy.map (·.1) := List.mem_map_of_mem busy
  refine ⟨?_, ?_, ?_⟩
  · refine runs.started.mem_iff.mpr (List.mem_append_left _ ?_)
    exact List.mem_append_left _ (List.mem_append_right _ name)
  · intro gone
    refine runs.retired_nodup.2 b.1 gone ?_
    exact List.mem_append_right _ (List.mem_append_right _ name)
  · rw [← runs.distinct.busy_filter busy]
    exact runs.own b.1

/-- A pool with room for one item is shut down while its worker is on a job and another job is in the
queue.  The exit waits for room, and the worker takes it after the second job. -/
theorem pool_keeps_jobs_of_shutdown :
    ∃ (log : List (PoolEvent Nat)) (s : PoolState Unit Nat), PoolRuns 1 log s ∧
      submitted log = [7, 8, 9] ∧ handled log = [(1, 7), (1, 8)] ∧ retired log = [1] ∧
      s.pool.queue = [.job 9] ∧
      (accepted log).Perm ((handled log).map (·.2) ++ (s.pool.busy.map (·.2) ++ jobs s.pool.queue)) ∧
      entered log = (taken log).map (·.2) ++ s.pool.queue ∧ EndsWorkers log := by
  have scaled : PoolRuns (κ := Unit) (J := Nat) 1 _ _ := PoolRuns.new.step (.inl (.scale () 1))
  have first := scaled.step (.inl (.submit () 7))
  have second := first.step (.inl (.submit () 8))
  have entered := second.step (.inr (.enter (.refl _) rfl rfl))
  have started := entered.step (e := .starts 1) (.inr (.start (by decide)))
  have taken := started.step (e := .takes 1 (.job 7)) (.inr (.takeJob (.refl _) rfl))
  have entered := taken.step (.inr (.enter (.refl _) rfl rfl))
  have shut := entered.step (.inl (.shutdown ()))
  have third := shut.step (.inl (.submit () 9))
  have handled := third.step (e := .handles 1 7) (.inr (.finish (by decide)))
  have taken := handled.step (e := .takes 1 (.job 8)) (.inr (.takeJob (.refl _) rfl))
  have entered := taken.step (.inr (.enter (.refl _) rfl rfl))
  have handled := entered.step (e := .handles 1 8) (.inr (.finish (by decide)))
  have ended := handled.step (e := .takes 1 .exit) (.inr (.takeExit (.refl _) rfl))
  have entered := ended.step (.inr (.enter (.refl _) rfl rfl))
  obtain ⟨_, jobs, _, _, line, _, _, ends, _⟩ := pool_keeps_jobs entered
  exact ⟨_, _, entered, rfl, rfl, rfl, rfl, jobs, line, ends⟩

end ChainIndex
