import Mathlib.Data.List.Nodup
import ChainIndex.Schedule

/-!
# When jobs send their messages

Jobs are added, replaced and removed, the clock ticks, and replies come late or never, in any order.
A job that was removed may still be waited for, and the one that replaced it has a key of its own.

The log of a run is the messages that were sent, each with whether it was answered.  The invariant
is `Paced`: the flag of a job says that the log holds a message of it without an answer, and every
message in the log put its job off by the interval.
-/

namespace ChainIndex

/-- A message that a job sent. -/
structure Sending where
  /-- When it was sent. -/
  time : Nat
  /-- The job as it was then. -/
  job : Job
  /-- It was answered, or dropped. -/
  answered : Bool := false

/-- A schedule, and what happened to its messages. -/
structure ScheduleRun where
  schedule : Schedule
  /-- The messages in the order in which they were sent. -/
  sent : List Sending := []

namespace ScheduleRun

/-- The jobs that wait for a reply, one for each message without an answer. -/
def awaited (s : ScheduleRun) : List Nat := (s.sent.filter (!·.answered)).map (·.job.key)

/-- The clock ticks. -/
def ticked (s : ScheduleRun) (now : Nat) : ScheduleRun where
  schedule := (s.schedule.due now).2
  sent := s.sent ++ (s.schedule.due now).1.map fun j => ⟨now, j, false⟩

end ScheduleRun

/-- A step of those who use a schedule, of its clock, or of the bus. -/
inductive ScheduleStep (s : ScheduleRun) : ScheduleRun → Prop
  /-- A job that was made at some time is added, in place of the one with its name. -/
  | add (made : Nat) (id : String) (interval : Nat) (service : String) (command : Command) :
      ScheduleStep s { s with schedule := s.schedule.addJob made id interval service command }
  /-- The job with a name is removed, where there is one. -/
  | remove (id : String) : ScheduleStep s { s with schedule := (s.schedule.removeJob id).2 }
  /-- The clock ticks, whatever time it shows. -/
  | tick (now : Nat) : ScheduleStep s (s.ticked now)
  /-- A message is answered, or dropped. -/
  | settle {d : Sending} {before behind : List Sending} (sent : s.sent = before ++ d :: behind)
      (waits : d.answered = false) :
      ScheduleStep s { s with
        schedule := s.schedule.settle d.job.key
        sent := before ++ { d with answered := true } :: behind }
  /-- The clock is started, or stopped. -/
  | control {schedule : Schedule} (jobs : schedule.jobs = s.schedule.jobs)
      (issued : schedule.issued = s.schedule.issued) :
      ScheduleStep s { s with schedule := schedule }

/-- The names of jobs are their own, and so are their keys.  A job waits for a reply where a message
of it has no answer, and no job for two.  A message put its job off, and the next one of the same
job went out no earlier than that. -/
structure Paced (s : ScheduleRun) : Prop where
  ids : (s.schedule.jobs.map (·.id)).Nodup
  keys : (s.schedule.jobs.map (·.key)).Nodup
  issued : ∀ j ∈ s.schedule.jobs, j.key < s.schedule.issued
  sent : ∀ d ∈ s.sent, d.job.key < s.schedule.issued
  flags : ∀ j ∈ s.schedule.jobs, j.inFlight = true ↔ j.key ∈ s.awaited
  once : s.awaited.Nodup
  putOff : ∀ d ∈ s.sent, ∀ j ∈ s.schedule.jobs, d.job.key = j.key →
    d.job = { j with next := d.time + j.interval, inFlight := true } ∧ d.time + j.interval ≤ j.next
  spaced : s.sent.Pairwise fun d e => d.job.key = e.job.key → d.time + d.job.interval ≤ e.time

variable {s t : ScheduleRun}

namespace Schedule

variable {now : Nat} {j : Job}

@[simp] theorem afterTick_key : (afterTick now j).key = j.key := by
  rw [afterTick]
  split <;> rfl

@[simp] theorem afterTick_id : (afterTick now j).id = j.id := by
  rw [afterTick]
  split <;> rfl

theorem isDue_iff : isDue now j = true ↔ j.next ≤ now := by
  rw [isDue, decide_eq_true_eq]

theorem afterTick_of_due (due : j.next ≤ now) :
    afterTick now j = { j with next := now + j.interval, inFlight := true } :=
  if_pos (isDue_iff.mpr due)

theorem afterTick_of_early (early : ¬j.next ≤ now) : afterTick now j = j :=
  if_neg fun due => early (isDue_iff.mp due)

/-- A job that sends its message is one of the list that is due and does not wait. -/
theorem mem_due {s : Schedule} {k : Job} : k ∈ (s.due now).1 ↔
    ∃ j ∈ s.jobs, j.next ≤ now ∧ j.inFlight = false ∧ k = afterTick now j := by
  simp only [due, List.mem_map, List.mem_filter, Bool.and_eq_true, Bool.not_eq_true', isDue_iff]
  constructor
  · rintro ⟨j, ⟨there, due, free⟩, rfl⟩
    exact ⟨j, there, due, free, rfl⟩
  · rintro ⟨j, there, due, free, rfl⟩
    exact ⟨j, ⟨there, due, free⟩, rfl⟩

/-- The keys of the jobs that send stand in the order of the list. -/
theorem keys_due_sublist (s : Schedule) (now : Nat) :
    ((s.due now).1.map (·.key)).Sublist (s.jobs.map (·.key)) := by
  have same : (s.due now).1.map (·.key) =
      (s.jobs.filter fun j => isDue now j && !j.inFlight).map (·.key) := by
    simp only [due, List.map_map, Function.comp_def, afterTick_key]
  rw [same]
  exact List.filter_sublist.map _

/-- An answer changes nothing about the jobs but that one no longer waits. -/
theorem map_settle {α : Type} (f : Job → α) (blind : ∀ j, f { j with inFlight := false } = f j)
    (s : Schedule) (key : Nat) : (s.settle key).jobs.map f = s.jobs.map f := by
  rw [settle, List.map_map]
  refine List.map_congr_left fun j _ => ?_
  rw [Function.comp_apply, apply_ite f, blind, ite_self]

end Schedule

namespace ScheduleRun

/-- One message less is waited for once it is answered. -/
theorem awaited_perm {d : Sending} {before behind : List Sending}
    (sent : s.sent = before ++ d :: behind) (waits : d.answered = false) (schedule : Schedule) :
    s.awaited.Perm (d.job.key ::
      awaited ⟨schedule, before ++ { d with answered := true } :: behind⟩) := by
  have split : s.awaited = (before.filter (!·.answered)).map (·.job.key) ++
      d.job.key :: (behind.filter (!·.answered)).map (·.job.key) := by
    simp [awaited, sent, waits]
  have left : awaited ⟨schedule, before ++ { d with answered := true } :: behind⟩ =
      (before.filter (!·.answered)).map (·.job.key) ++
        (behind.filter (!·.answered)).map (·.job.key) := by
    simp [awaited]
  rw [split, left]
  exact List.perm_middle

theorem mem_awaited {key : Nat} :
    key ∈ s.awaited ↔ ∃ d ∈ s.sent, d.answered = false ∧ d.job.key = key := by
  simp only [awaited, List.mem_map, List.mem_filter, Bool.not_eq_true', and_assoc]

theorem awaited_ticked (s : ScheduleRun) (now : Nat) :
    (s.ticked now).awaited = s.awaited ++ (s.schedule.due now).1.map (·.key) := by
  rw [awaited, ticked, List.filter_append, List.map_append, awaited]
  congr 1
  rw [List.filter_eq_self.mpr, List.map_map]
  · rfl
  · intro d hd
    obtain ⟨j, -, rfl⟩ := List.mem_map.mp hd
    rfl

end ScheduleRun

namespace Paced

theorem start (tick : Nat) : Paced ⟨Schedule.ofTick tick, []⟩ where
  ids := List.nodup_nil
  keys := List.nodup_nil
  issued _ there := absurd there List.not_mem_nil
  sent _ there := absurd there List.not_mem_nil
  flags _ there := absurd there List.not_mem_nil
  once := List.nodup_nil
  putOff _ there := absurd there List.not_mem_nil
  spaced := .nil

/-- A job that is gone takes nothing with it. -/
theorem remove (h : Paced s) (id : String) :
    Paced { s with schedule := (s.schedule.removeJob id).2 } := by
  have fewer : (s.schedule.removeJob id).2.jobs.Sublist s.schedule.jobs := List.filter_sublist
  exact {
    ids := h.ids.sublist (fewer.map _)
    keys := h.keys.sublist (fewer.map _)
    issued := fun j there => h.issued j (fewer.subset there)
    sent := h.sent
    flags := fun j there => h.flags j (fewer.subset there)
    once := h.once
    putOff := fun d hd j there => h.putOff d hd j (fewer.subset there)
    spaced := h.spaced }

/-- A job that is new to the list has a key that nothing has. -/
theorem append (h : Paced s) {j : Job} (key : j.key = s.schedule.issued) (free : j.inFlight = false)
    (other : j.id ∉ s.schedule.jobs.map (·.id)) :
    Paced { s with schedule := { s.schedule with
      jobs := s.schedule.jobs ++ [j], issued := s.schedule.issued + 1 } } := by
  have unheard : j.key ∉ s.awaited := by
    intro waits
    obtain ⟨d, hd, _, same⟩ := ScheduleRun.mem_awaited.mp waits
    have before := h.sent d hd
    omega
  exact {
    ids := by
      show (List.map _ (s.schedule.jobs ++ [j])).Nodup
      rw [List.map_append]
      exact h.ids.append (List.nodup_singleton _) (by simpa using other)
    keys := by
      show (List.map _ (s.schedule.jobs ++ [j])).Nodup
      rw [List.map_append]
      refine h.keys.append (List.nodup_singleton _) ?_
      rw [List.map_singleton, List.disjoint_singleton]
      intro there
      obtain ⟨k, hk, same⟩ := List.mem_map.mp there
      have before := h.issued k hk
      omega
    issued := by
      intro k there
      show k.key < s.schedule.issued + 1
      rcases List.mem_append.mp there with old | new
      · exact Nat.lt_succ_of_lt (h.issued k old)
      · rw [List.mem_singleton.mp new, key]
        exact Nat.lt_succ_self _
    sent := fun d hd => Nat.lt_succ_of_lt (h.sent d hd)
    flags := by
      intro k there
      rcases List.mem_append.mp there with old | new
      · exact h.flags k old
      · rw [List.mem_singleton.mp new, free]
        exact iff_of_false Bool.false_ne_true unheard
    once := h.once
    putOff := by
      intro d hd k there same
      rcases List.mem_append.mp there with old | new
      · exact h.putOff d hd k old same
      · rw [List.mem_singleton.mp new, key] at same
        exact absurd same (Nat.ne_of_lt (h.sent d hd))
    spaced := h.spaced }

theorem add (h : Paced s) (made : Nat) (id : String) (interval : Nat) (service : String)
    (command : Command) :
    Paced { s with schedule := s.schedule.addJob made id interval service command } := by
  refine (h.remove id).append rfl rfl ?_
  rw [List.mem_map]
  rintro ⟨j, there, same⟩
  have kept := (List.mem_filter.mp there).2
  simp [same] at kept

/-- Two jobs of the list with one key are one. -/
theorem eq_of_key (h : Paced s) {j k : Job} (hj : j ∈ s.schedule.jobs) (hk : k ∈ s.schedule.jobs)
    (same : j.key = k.key) : j = k := List.inj_on_of_nodup_map h.keys hj hk same

theorem tick (h : Paced s) (now : Nat) : Paced (s.ticked now) := by
  -- who sends now is of the list, was due, and did not wait
  have fires {k : Job} (hk : k ∈ (s.schedule.due now).1) : ∃ j ∈ s.schedule.jobs, j.next ≤ now ∧
      j.key ∉ s.awaited ∧ k = { j with next := now + j.interval, inFlight := true } := by
    obtain ⟨j, hj, due, free, rfl⟩ := Schedule.mem_due.mp hk
    refine ⟨j, hj, due, ?_, Schedule.afterTick_of_due due⟩
    rw [← h.flags j hj, free]
    exact Bool.false_ne_true
  have distinct : ((s.schedule.due now).1.map (·.key)).Nodup :=
    h.keys.sublist (s.schedule.keys_due_sublist now)
  constructor
  case ids => simpa [ScheduleRun.ticked, Schedule.due, Function.comp_def] using h.ids
  case keys => simpa [ScheduleRun.ticked, Schedule.due, Function.comp_def] using h.keys
  case issued =>
    intro k hk
    obtain ⟨j, hj, rfl⟩ := List.mem_map.mp hk
    rw [Schedule.afterTick_key]
    exact h.issued j hj
  case sent =>
    intro d hd
    rcases List.mem_append.mp hd with old | new
    · exact h.sent d old
    · obtain ⟨k, hk, rfl⟩ := List.mem_map.mp new
      obtain ⟨j, hj, _, _, rfl⟩ := fires hk
      exact h.issued j hj
  case flags =>
    intro k hk
    obtain ⟨j, hj, rfl⟩ := List.mem_map.mp hk
    rw [ScheduleRun.awaited_ticked, List.mem_append, Schedule.afterTick_key, ← h.flags j hj]
    by_cases due : j.next ≤ now
    · rw [Schedule.afterTick_of_due due]
      refine iff_of_true rfl ?_
      cases waits : j.inFlight with
      | true => exact .inl rfl
      | false =>
        exact .inr (List.mem_map.mpr
          ⟨_, Schedule.mem_due.mpr ⟨j, hj, due, waits, rfl⟩, Schedule.afterTick_key⟩)
    · rw [Schedule.afterTick_of_early due]
      refine (or_iff_left ?_).symm
      intro sends
      obtain ⟨k, hk, same⟩ := List.mem_map.mp sends
      obtain ⟨i, hi, early, _, rfl⟩ := fires hk
      rw [h.eq_of_key hi hj same] at early
      exact due early
  case once =>
    rw [ScheduleRun.awaited_ticked]
    refine h.once.append distinct ?_
    intro key waits sends
    obtain ⟨k, hk, rfl⟩ := List.mem_map.mp sends
    obtain ⟨j, _, _, free, rfl⟩ := fires hk
    exact free waits
  case putOff =>
    intro d hd k hk same
    obtain ⟨j, hj, rfl⟩ := List.mem_map.mp hk
    rw [Schedule.afterTick_key] at same
    rcases List.mem_append.mp hd with old | new
    · obtain ⟨told, before⟩ := h.putOff d old j hj same
      by_cases due : j.next ≤ now
      · rw [Schedule.afterTick_of_due due]
        refine ⟨told, ?_⟩
        show d.time + j.interval ≤ now + j.interval
        omega
      · rw [Schedule.afterTick_of_early due]
        exact ⟨told, before⟩
    · obtain ⟨k, hk, rfl⟩ := List.mem_map.mp new
      obtain ⟨i, hi, due, _, rfl⟩ := fires hk
      obtain rfl := h.eq_of_key hi hj same
      rw [Schedule.afterTick_of_due due]
      exact ⟨rfl, Nat.le_refl _⟩
  case spaced =>
    refine List.pairwise_append.mpr ⟨h.spaced, ?_, ?_⟩
    · -- no job sends twice at one tick
      refine List.pairwise_map.mpr ((List.pairwise_map.mp distinct).imp ?_)
      intro j k other same
      exact absurd same other
    · intro d hd e he same
      obtain ⟨k, hk, rfl⟩ := List.mem_map.mp he
      obtain ⟨j, hj, due, _, rfl⟩ := fires hk
      obtain ⟨told, before⟩ := h.putOff d hd j hj same
      rw [told]
      exact Nat.le_trans before due

theorem settle (h : Paced s) {d : Sending} {before behind : List Sending}
    (sent : s.sent = before ++ d :: behind) (waits : d.answered = false) :
    Paced { s with
      schedule := s.schedule.settle d.job.key
      sent := before ++ { d with answered := true } :: behind } := by
  have perm := s.awaited_perm sent waits (s.schedule.settle d.job.key)
  obtain ⟨gone, once⟩ := List.nodup_cons.mp (perm.nodup_iff.mp h.once)
  have heard {e : Sending} (he : e ∈ before ++ { d with answered := true } :: behind) :
      ∃ f ∈ s.sent, f.time = e.time ∧ f.job = e.job := by
    rw [sent]
    rcases List.mem_append.mp he with first | rest
    · exact ⟨e, List.mem_append_left _ first, rfl, rfl⟩
    · rcases List.mem_cons.mp rest with rfl | last
      · exact ⟨d, List.mem_append_right _ List.mem_cons_self, rfl, rfl⟩
      · exact ⟨e, List.mem_append_right _ (List.mem_cons_of_mem _ last), rfl, rfl⟩
  constructor
  case once => exact once
  case ids => exact (s.schedule.map_settle (·.id) (fun _ => rfl) d.job.key).symm ▸ h.ids
  case keys => exact (s.schedule.map_settle (·.key) (fun _ => rfl) d.job.key).symm ▸ h.keys
  case issued =>
    intro k hk
    obtain ⟨j, hj, rfl⟩ := List.mem_map.mp hk
    show (if _ then _ else _ : Job).key < s.schedule.issued
    rw [apply_ite Job.key, ite_self]
    exact h.issued j hj
  case sent =>
    intro e he
    obtain ⟨f, hf, _, job⟩ := heard he
    rw [← job]
    exact h.sent f hf
  case flags =>
    intro k hk
    obtain ⟨j, hj, rfl⟩ := List.mem_map.mp hk
    by_cases its : j.key = d.job.key
    · rw [if_pos its]
      refine iff_of_false Bool.false_ne_true ?_
      rw [← its] at gone
      exact gone
    · rw [if_neg its, h.flags j hj, perm.mem_iff, List.mem_cons, or_iff_right its]
  case putOff =>
    intro e he k hk same
    obtain ⟨f, hf, time, job⟩ := heard he
    obtain ⟨j, hj, rfl⟩ := List.mem_map.mp hk
    rw [← job] at same ⊢
    rw [← time]
    by_cases its : j.key = d.job.key
    · rw [if_pos its] at same ⊢
      exact h.putOff f hf j hj same
    · rw [if_neg its] at same ⊢
      exact h.putOff f hf j hj same
  case spaced =>
    have spaced := h.spaced
    rw [sent] at spaced
    simpa only [List.pairwise_append, List.pairwise_cons, List.mem_cons, forall_eq_or_imp]
      using spaced

theorem step (h : Paced s) (step : ScheduleStep s t) : Paced t := by
  cases step with
  | add made id interval service command => exact h.add made id interval service command
  | remove id => exact h.remove id
  | tick now => exact h.tick now
  | settle sent waits => exact h.settle sent waits
  | control jobs issued =>
    exact {
      ids := jobs ▸ h.ids
      keys := jobs ▸ h.keys
      issued := by
        rw [jobs, issued]
        exact h.issued
      sent := issued ▸ h.sent
      flags := jobs ▸ h.flags
      once := h.once
      putOff := jobs ▸ h.putOff
      spaced := h.spaced }

end Paced

end ChainIndex
