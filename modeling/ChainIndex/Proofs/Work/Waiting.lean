import Mathlib.Logic.Function.Iterate
import ChainIndex.Proofs.Work.Keyed
import ChainIndex.Work.Barrier

/-!
# Waiting neither ends too early nor too late

Calls that add items, calls that are done with one, and waiters share a barrier, and their steps
come in any order.  The call that counts the last item down empties the barrier, and tells the
waiters in a later step.  A waiter registers, looks at the count, and sleeps unless it is zero.
Once told, it registers again.

The calls that count an item down are numbered, and a run keeps which of them emptied the barrier
and have not told the waiters yet.  It also keeps what the waiters read.

The count is a word.  `Attentive` holds in every reachable state: the items added are those counted
down, those pending, and a number of whole words that the count has lost, and where the barrier is
empty a waiter sleeps only if it was told, or is about to be told, or a word was lost.  A waiter can
be told from when it registers, so nothing is lost between its look and its sleep, which are one
step here.

No word is ever lost at the barrier of a request.  All its items are those of one list, added at once
to a barrier that nobody has used, so there are never more of them than a word can count.  What is
stated here asks for a word that can count the items that are left, whenever they were added.
-/

namespace ChainIndex

/-- A look at the count. -/
structure Look where
  waiter : Nat
  count : Nat

/-- A barrier between two steps, and what happened to it. -/
structure BarrierRun where
  barrier : Barrier := {}
  /-- The items added. -/
  added : Nat := 0
  /-- The calls that counted an item down. -/
  counted : Nat := 0
  /-- The call that emptied the barrier, where it is empty since that call. -/
  emptied : Option Nat := none
  /-- The calls that emptied the barrier and have not told the waiters yet. -/
  tellers : List Nat := []
  /-- What the waiters read, newest first. -/
  looks : List Look := []

namespace BarrierRun

/-- The names of those who wait and of those who got through. -/
def names (s : BarrierRun) : List Nat := s.barrier.waiters.map (·.id) ++ s.barrier.through

/-- The call that emptied the barrier is about to tell the waiters. -/
def Owed (s : BarrierRun) : Prop := ∃ call, s.emptied = some call ∧ call ∈ s.tellers

/-- The count is that of the items added and not counted down. -/
def Exact (s : BarrierRun) : Prop := s.barrier.pending + s.counted = s.added

/-- Nobody sleeps at an empty barrier without having been told or being about to be told. -/
def Wakeful (s : BarrierRun) : Prop :=
  s.barrier.pending = 0 → ∀ w ∈ s.barrier.waiters, w.suspended = true → w.told = true ∨ s.Owed

end BarrierRun

/-- One step of a call or of a waiter. -/
inductive BarrierStep (s : BarrierRun) : BarrierRun → Prop
  /-- Items are added. -/
  | add (items : UInt64) :
      BarrierStep s { s with
        barrier := s.barrier.add items.toNat
        added := s.added + items.toNat
        emptied := if items = 0 then s.emptied else none }
  /-- A call finds no item to count down. -/
  | spare (empty : s.barrier.pending = 0) : BarrierStep s { s with barrier := s.barrier.finish }
  /-- A call counts an item down that is not the last one. -/
  | finish (more : 1 < s.barrier.pending) :
      BarrierStep s { s with barrier := s.barrier.finish, counted := s.counted + 1 }
  /-- A call counts the last item down. -/
  | empty (last : s.barrier.pending = 1) :
      BarrierStep s { s with
        barrier := s.barrier.finish
        counted := s.counted + 1
        emptied := some (s.counted + 1)
        tellers := (s.counted + 1) :: s.tellers }
  /-- A call that emptied the barrier tells the waiters. -/
  | tell (call : Nat) (owes : call ∈ s.tellers) :
      BarrierStep s { s with barrier := s.barrier.tell, tellers := s.tellers.erase call }
  /-- A waiter registers. -/
  | arrive (id : Nat) (fresh : id ∉ s.names) :
      BarrierStep s { s with barrier := s.barrier.arrive id }
  /-- A waiter that is awake looks at the count. -/
  | check (w : Waiter) (there : w ∈ s.barrier.waiters) (awake : w.suspended = false) :
      BarrierStep s { s with
        barrier := s.barrier.check w.id
        looks := ⟨w.id, s.barrier.pending⟩ :: s.looks }
  /-- A waiter that was told wakes up and registers again. -/
  | resume (w : Waiter) (there : w ∈ s.barrier.waiters) (asleep : w.suspended = true)
      (told : w.told = true) : BarrierStep s { s with barrier := s.barrier.resume w.id }

/-- What a barrier without items and waiters becomes. -/
inductive BarrierReachable : BarrierRun → Prop
  | start : BarrierReachable {}
  | step {s s' : BarrierRun} (reached : BarrierReachable s) (step : BarrierStep s s') :
      BarrierReachable s'

/-! ## Single operations -/

namespace Barrier

variable {b : Barrier} {w : Waiter}

theorem finish_of_empty (empty : b.pending = 0) : b.finish = b := by
  rw [finish, empty]

theorem finish_of_last (last : b.pending = 1) :
    b.finish = { b with pending := 0, telling := b.telling + 1 } := by
  rw [finish, last]

theorem finish_of_more (more : 1 < b.pending) : b.finish = { b with pending := b.pending - 1 } := by
  rw [finish]
  split
  · omega
  · omega
  · next n left => rw [left]; rfl

theorem tell_of_pos (owed : 0 < b.telling) :
    b.tell = { b with
      telling := b.telling - 1
      waiters := b.waiters.map fun w => { w with told := true } } := by
  rw [tell]
  split
  · omega
  · next n left => rw [left]; rfl

theorem check_of_awake (there : w ∈ b.waiters) (awake : w.suspended = false) :
    b.check w.id =
      if b.pending = 0 then
        { b with waiters := b.waiters.filter (·.id ≠ w.id), through := w.id :: b.through }
      else
        { b with
          waiters := b.waiters.map fun v => if v.id = w.id then { v with suspended := true } else v } := by
  rw [check]
  exact if_pos (List.any_eq_true.mpr ⟨w, there, by simp [awake]⟩)

/-- Waiters that change keep their names. -/
theorem map_id_map (ws : List Waiter) {f : Waiter → Waiter} (keeps : ∀ w, (f w).id = w.id) :
    (ws.map f).map (·.id) = ws.map (·.id) := by
  rw [List.map_map]
  exact List.map_congr_left fun w _ => keeps w

theorem map_id_resume (b : Barrier) (id : Nat) :
    (b.resume id).waiters.map (·.id) = b.waiters.map (·.id) := by
  refine map_id_map b.waiters fun w => ?_
  split
  · next hit =>
    simp only [Bool.and_eq_true, decide_eq_true_eq] at hit
    exact hit.1.1.symm
  · rfl

end Barrier

/-! ## The invariant -/

/-- The count is what is left of the items added, but for whole words.  Each waiter has a name of
its own and is through once it has read zero.  Where the barrier is empty and nobody who sleeps is
about to wake up, a word was lost. -/
structure Attentive (s : BarrierRun) : Prop where
  word : s.barrier.pending < UInt64.size
  account : ∃ laps, s.added = s.counted + s.barrier.pending + laps * UInt64.size
  telling : s.barrier.telling = s.tellers.length
  names : s.names.Nodup
  through : s.barrier.through = (s.looks.filter (·.count = 0)).map (·.waiter)
  asleep : s.barrier.pending = 0 → ∀ w ∈ s.barrier.waiters, w.suspended = true →
    w.told = true ∨ s.Owed ∨ s.counted + UInt64.size ≤ s.added

variable {s t : BarrierRun} {w : Waiter} {call id : Nat}

namespace Attentive

theorem start : Attentive {} where
  word := by decide
  account := ⟨0, rfl⟩
  telling := rfl
  names := .nil
  through := rfl
  asleep _ _ there := absurd there List.not_mem_nil

theorem add (h : Attentive s) (items : UInt64) :
    Attentive { s with
      barrier := s.barrier.add items.toNat
      added := s.added + items.toNat
      emptied := if items = 0 then s.emptied else none } := by
  obtain ⟨laps, account⟩ := h.account
  have split := Nat.div_add_mod' (s.barrier.pending + items.toNat) UInt64.size
  refine ⟨Nat.mod_lt _ (Nat.zero_lt_of_lt h.word),
    ⟨laps + (s.barrier.pending + items.toNat) / UInt64.size, ?_⟩, h.telling, h.names, h.through, ?_⟩
  · rw [Barrier.add, Nat.add_mul]
    dsimp only
    omega
  · intro empty w there asleep
    by_cases none_added : items = 0
    · subst none_added
      have same : (s.barrier.pending + UInt64.toNat 0) % UInt64.size = s.barrier.pending :=
        Nat.mod_eq_of_lt h.word
      rw [Barrier.add, same] at empty
      simpa [BarrierRun.Owed] using h.asleep empty w there asleep
    · -- where something is added and the count is zero, it has gone around
      have some_added : 0 < items.toNat :=
        Nat.pos_of_ne_zero fun zero => none_added (UInt64.toNat_inj.mp zero)
      have around : UInt64.size ≤ s.barrier.pending + items.toNat :=
        Nat.le_of_dvd (by omega) (Nat.dvd_of_mod_eq_zero empty)
      refine .inr (.inr ?_)
      dsimp only
      omega

theorem spare (h : Attentive s) (empty : s.barrier.pending = 0) :
    Attentive { s with barrier := s.barrier.finish } := by
  rw [Barrier.finish_of_empty empty]
  exact h

theorem finish (h : Attentive s) (more : 1 < s.barrier.pending) :
    Attentive { s with barrier := s.barrier.finish, counted := s.counted + 1 } := by
  obtain ⟨laps, account⟩ := h.account
  rw [Barrier.finish_of_more more]
  refine ⟨Nat.lt_of_le_of_lt (Nat.sub_le _ _) h.word, ⟨laps, ?_⟩, h.telling, h.names, h.through, ?_⟩
  · dsimp only
    omega
  · intro empty
    dsimp only at empty
    omega

theorem empty (h : Attentive s) (last : s.barrier.pending = 1) :
    Attentive { s with
      barrier := s.barrier.finish
      counted := s.counted + 1
      emptied := some (s.counted + 1)
      tellers := (s.counted + 1) :: s.tellers } := by
  obtain ⟨laps, account⟩ := h.account
  rw [Barrier.finish_of_last last]
  refine ⟨Nat.zero_lt_of_lt h.word, ⟨laps, ?_⟩, ?_, h.names, h.through, ?_⟩
  · rw [last] at account
    exact account
  · rw [List.length_cons, ← h.telling]
  · exact fun _ _ _ _ => .inr (.inl ⟨_, rfl, List.mem_cons_self⟩)

theorem tell (h : Attentive s) (owes : call ∈ s.tellers) :
    Attentive { s with barrier := s.barrier.tell, tellers := s.tellers.erase call } := by
  have owed : 0 < s.barrier.telling := h.telling ▸ List.length_pos_of_mem owes
  rw [Barrier.tell_of_pos owed]
  refine ⟨h.word, h.account, ?_, ?_, h.through, ?_⟩
  · rw [List.length_erase_of_mem owes, ← h.telling]
  · rw [BarrierRun.names, Barrier.map_id_map]
    · exact h.names
    · exact fun _ => rfl
  · intro _ w there _
    obtain ⟨v, _, rfl⟩ := List.mem_map.mp there
    exact .inl rfl

theorem arrive (h : Attentive s) (fresh : id ∉ s.names) :
    Attentive { s with barrier := s.barrier.arrive id } := by
  refine ⟨h.word, h.account, h.telling, ?_, h.through, ?_⟩
  · have names : (s.barrier.waiters.map (·.id) ++ [id] ++ s.barrier.through).Perm (id :: s.names) := by
      rw [List.append_assoc]
      exact List.perm_middle
    simp only [BarrierRun.names, Barrier.arrive, List.map_append, List.map_cons, List.map_nil]
    exact names.nodup_iff.mpr (h.names.cons fresh)
  · intro empty w there asleep
    rcases List.mem_append.mp there with there | there
    · exact h.asleep empty w there asleep
    · cases List.mem_singleton.mp there
      cases asleep

theorem check (h : Attentive s) (there : w ∈ s.barrier.waiters) (awake : w.suspended = false) :
    Attentive { s with
      barrier := s.barrier.check w.id
      looks := ⟨w.id, s.barrier.pending⟩ :: s.looks } := by
  rw [Barrier.check_of_awake there awake]
  by_cases empty : s.barrier.pending = 0
  · rw [if_pos empty]
    refine ⟨h.word, h.account, h.telling, ?_, ?_, ?_⟩
    · have left := (perm_cons_filter (·.id) there (List.nodup_append.mp h.names).1).map (·.id)
      have moved : s.names.Perm
          ((s.barrier.waiters.filter (·.id ≠ w.id)).map (·.id) ++ w.id :: s.barrier.through) :=
        (left.append_right s.barrier.through).trans List.perm_middle.symm
      exact moved.nodup_iff.mp h.names
    · simp [empty, h.through]
    · intro _ v kept asleep
      exact h.asleep empty v (List.mem_filter.mp kept).1 asleep
  · rw [if_neg empty]
    refine ⟨h.word, h.account, h.telling, ?_, ?_, fun zero => absurd zero empty⟩
    · rw [BarrierRun.names, Barrier.map_id_map]
      · exact h.names
      · intro v
        split <;> rfl
    · simp [empty, h.through]

theorem resume (h : Attentive s) (id : Nat) : Attentive { s with barrier := s.barrier.resume id } := by
  refine ⟨h.word, h.account, h.telling, ?_, h.through, ?_⟩
  · rw [BarrierRun.names, Barrier.map_id_resume]
    exact h.names
  · intro empty v there asleep
    obtain ⟨u, old, rfl⟩ := List.mem_map.mp there
    split at asleep
    · cases asleep
    · next other =>
      rw [if_neg other]
      exact h.asleep empty u old asleep

theorem step (h : Attentive s) (step : BarrierStep s t) : Attentive t := by
  cases step with
  | add items => exact h.add items
  | spare empty => exact h.spare empty
  | finish more => exact h.finish more
  | empty last => exact h.empty last
  | tell _ owes => exact h.tell owes
  | arrive _ fresh => exact h.arrive fresh
  | check _ there awake => exact h.check there awake
  | resume w => exact h.resume w.id

/-- The count is exact as long as it has lost no word. -/
theorem exact_iff (h : Attentive s) : s.Exact ↔ s.added < s.counted + UInt64.size := by
  obtain ⟨laps, account⟩ := h.account
  have word := h.word
  rw [BarrierRun.Exact]
  constructor
  · intro exact
    omega
  · intro few
    have none_lost : laps = 0 := by
      by_contra lost
      have := Nat.le_mul_of_pos_left UInt64.size (Nat.pos_of_ne_zero lost)
      omega
    rw [none_lost] at account
    omega

theorem wakeful (h : Attentive s) (few : s.added < s.counted + UInt64.size) : s.Wakeful := by
  intro empty w there asleep
  rcases h.asleep empty w there asleep with told | owed | lost
  · exact .inl told
  · exact .inr owed
  · exact absurd few (Nat.not_lt.mpr lost)

end Attentive

theorem BarrierReachable.attentive (h : BarrierReachable s) : Attentive s := by
  induction h with
  | start => exact .start
  | step _ step ih => exact ih.step step

/-! ## Whole calls

What is called in one go is a run of these steps. -/

namespace BarrierReachable

/-- The barrier of a request comes to be by one addition. -/
theorem ofCount (items : UInt64) :
    BarrierReachable { barrier := .ofCount items.toNat, added := items.toNat } := by
  have added := start.step (.add items)
  have count : ({} : Barrier).add items.toNat = .ofCount items.toNat := by
    rw [Barrier.add, Barrier.ofCount, Nat.zero_add, Nat.mod_eq_of_lt items.toNat_lt_size]
  rwa [count, Nat.zero_add, ite_self] at added

theorem finish (h : BarrierReachable s) :
    ∃ t, BarrierReachable t ∧ t.barrier = s.barrier.finish ∧ t.added = s.added := by
  rcases Nat.lt_trichotomy s.barrier.pending 1 with less | last | more
  · exact ⟨_, h.step (.spare (Nat.lt_one_iff.mp less)), rfl, rfl⟩
  · exact ⟨_, h.step (.empty last), rfl, rfl⟩
  · exact ⟨_, h.step (.finish more), rfl, rfl⟩

theorem tell (h : BarrierReachable s) :
    ∃ t, BarrierReachable t ∧ t.barrier = s.barrier.tell ∧ t.added = s.added := by
  cases owing : s.tellers with
  | nil =>
    have nobody : s.barrier.telling = 0 := by rw [h.attentive.telling, owing, List.length_nil]
    exact ⟨s, h, by rw [Barrier.tell, nobody], rfl⟩
  | cons call rest => exact ⟨_, h.step (.tell call (owing ▸ List.mem_cons_self)), rfl, rfl⟩

/-- The barrier of a request, with any number of items done, never has more left than a word can
count. -/
theorem ofRequest (items : UInt64) (calls : Nat) :
    ∃ t, BarrierReachable t ∧ t.barrier = Barrier.done^[calls] (.ofCount items.toNat) ∧
      t.added < t.counted + UInt64.size := by
  have done : ∃ t, BarrierReachable t ∧ t.barrier = Barrier.done^[calls] (.ofCount items.toNat) ∧
      t.added = items.toNat := by
    induction calls with
    | zero => exact ⟨_, ofCount items, rfl, rfl⟩
    | succ calls ih =>
      obtain ⟨s, reached, so_far, added⟩ := ih
      obtain ⟨t, reached, finished, same⟩ := reached.finish
      obtain ⟨u, reached, told, still⟩ := reached.tell
      refine ⟨u, reached, ?_, (still.trans same).trans added⟩
      rw [Function.iterate_succ_apply', ← so_far, told, finished, Barrier.done]
  obtain ⟨t, reached, barrier, added⟩ := done
  have word := items.toNat_lt_size
  exact ⟨t, reached, barrier, by omega⟩

theorem resume (h : BarrierReachable s) (id : Nat) :
    ∃ t, BarrierReachable t ∧ t.barrier = s.barrier.resume id := by
  by_cases hit : ∃ w ∈ s.barrier.waiters, w.id = id ∧ w.suspended = true ∧ w.told = true
  · obtain ⟨w, there, rfl, asleep, told⟩ := hit
    exact ⟨_, h.step (.resume w there asleep told), rfl⟩
  · refine ⟨s, h, ?_⟩
    have same : ∀ w ∈ s.barrier.waiters,
        (if w.id = id && w.suspended && w.told then { id := id } else w) = w := by
      intro w there
      refine if_neg fun woken => hit ⟨w, there, ?_⟩
      simpa only [Bool.and_eq_true, decide_eq_true_eq, and_assoc] using woken
    rw [Barrier.resume, List.map_congr_left same, List.map_id']

theorem check (h : BarrierReachable s) (id : Nat) :
    ∃ t, BarrierReachable t ∧ t.barrier = s.barrier.check id := by
  by_cases hit : s.barrier.waiters.any fun w => w.id = id && !w.suspended
  · obtain ⟨w, there, hit⟩ := List.any_eq_true.mp hit
    simp only [Bool.and_eq_true, decide_eq_true_eq, Bool.not_eq_true'] at hit
    obtain ⟨rfl, awake⟩ := hit
    exact ⟨_, h.step (.check w there awake), rfl⟩
  · exact ⟨s, h, by rw [Barrier.check, if_neg hit]⟩

theorem settle (h : BarrierReachable s) : ∃ t, BarrierReachable t ∧ t.barrier = s.barrier.settle := by
  have turns (ws : List Waiter) : ∀ s, BarrierReachable s → ∃ t, BarrierReachable t ∧
      t.barrier = ws.foldl (fun b w => (b.resume w.id).check w.id) s.barrier := by
    induction ws with
    | nil => exact fun s h => ⟨s, h, rfl⟩
    | cons w rest ih =>
      intro s h
      obtain ⟨t, reached, resumed⟩ := h.resume w.id
      obtain ⟨u, reached, checked⟩ := reached.check w.id
      obtain ⟨v, reached, settled⟩ := ih u reached
      exact ⟨v, reached, by rw [settled, checked, resumed, List.foldl_cons]⟩
  exact turns s.barrier.waiters s h

end BarrierReachable

namespace Barrier

/-- At an empty barrier a waiter that is awake, or was told, gets through. -/
theorem check_resume {b : Barrier} {w : Waiter} {rest : List Waiter} (empty : b.pending = 0)
    (line : b.waiters = w :: rest) (distinct : (b.waiters.map (·.id)).Nodup)
    (ready : w.suspended = true → w.told = true) :
    (b.resume w.id).check w.id = { b with waiters := rest, through := w.id :: b.through } := by
  rw [line, List.map_cons, List.nodup_cons] at distinct
  have others : ∀ v ∈ rest, v.id ≠ w.id := fun v there same =>
    distinct.1 (List.mem_map.mpr ⟨v, there, same⟩)
  let u : Waiter := if w.id = w.id && w.suspended && w.told then { id := w.id } else w
  have resumed : b.resume w.id = { b with waiters := u :: rest } := by
    have same : ∀ v ∈ rest,
        (if v.id = w.id && v.suspended && v.told then { id := w.id } else v) = v := by
      intro v there
      simp [others v there]
    rw [resume, line, List.map_cons, List.map_congr_left same, List.map_id']
  have name : u.id = w.id := by
    dsimp only [u]
    split <;> rfl
  have awake : u.suspended = false := by
    dsimp only [u]
    cases asleep : w.suspended with
    | false => simp [asleep]
    | true => simp [ready asleep]
  have kept : (u :: rest).filter (·.id ≠ u.id) = rest := by
    rw [List.filter_cons_of_neg (by simp), List.filter_eq_self]
    simpa [name] using others
  rw [resumed, ← name, check_of_awake List.mem_cons_self awake, if_pos empty]
  simp only [kept]

theorem settle_waiters {b : Barrier} (empty : b.pending = 0)
    (distinct : (b.waiters.map (·.id)).Nodup)
    (ready : ∀ w ∈ b.waiters, w.suspended = true → w.told = true) : b.settle.waiters = [] := by
  rw [settle]
  generalize line : b.waiters = ws at *
  induction ws generalizing b with
  | nil => exact line
  | cons w rest ih =>
    rw [List.foldl_cons, check_resume empty line (line ▸ distinct) (ready w List.mem_cons_self)]
    exact ih empty rfl (List.nodup_cons.mp distinct).2
      fun v there => ready v (List.mem_cons_of_mem _ there)

end Barrier

/-! ## The statement -/

/-- However the steps come, those who are through have read zero, each once.  As long as a word can
count the items that are left, the count is that of the items added and not counted down, and nobody
sleeps at an empty barrier who was not told and is not about to be told.  Then all who wait get
through once the barrier is empty and no call has to tell them any more. -/
theorem barrier_awaits_all (h : BarrierReachable s) (few : s.added < s.counted + UInt64.size) :
    s.barrier.through = (s.looks.filter (·.count = 0)).map (·.waiter) ∧ s.barrier.through.Nodup ∧
    s.Exact ∧ s.Wakeful ∧
    (s.barrier.pending = 0 → s.tellers = [] →
      ∃ t, BarrierReachable t ∧ t.barrier = s.barrier.settle ∧ t.barrier.waiters = []) := by
  have attentive := h.attentive
  have distinct := List.nodup_append.mp attentive.names
  have wakeful := attentive.wakeful few
  refine ⟨attentive.through, distinct.2.1, attentive.exact_iff.mpr few, wakeful, ?_⟩
  intro empty all_told
  obtain ⟨t, reached, settled⟩ := h.settle
  refine ⟨t, reached, settled, ?_⟩
  rw [settled]
  refine Barrier.settle_waiters empty distinct.1 fun w there asleep => ?_
  rcases wakeful empty w there asleep with told | ⟨call, _, owes⟩
  · exact told
  · rw [all_told] at owes
    cases owes

/-- A waiter at the barrier of a request for two blocks has read two and sleeps when both are done.
The second call has yet to tell it, and once it has, the waiter gets through. -/
theorem barrier_awaits_all_of_two : ∃ s t : BarrierRun,
    BarrierReachable s ∧ s.added < s.counted + UInt64.size ∧ s.barrier.pending = 0 ∧
    s.barrier.waiters = [{ id := 0, suspended := true, told := false }] ∧ s.tellers = [2] ∧
    s.emptied = some 2 ∧ s.Exact ∧ s.Wakeful ∧
    BarrierReachable t ∧ t.barrier.waiters = [{ id := 0, suspended := true, told := true }] ∧
    t.barrier.settle.waiters = [] := by
  have arrived := (BarrierReachable.ofCount 2).step (.arrive 0 List.not_mem_nil)
  have asleep : BarrierReachable {
      barrier := { pending := 2, waiters := [{ id := 0, suspended := true }] }
      added := 2
      looks := [⟨0, 2⟩] } :=
    arrived.step (.check { id := 0 } List.mem_cons_self rfl)
  have emptied : BarrierReachable {
      barrier := { telling := 1, waiters := [{ id := 0, suspended := true }] }
      added := 2
      counted := 2
      emptied := some 2
      tellers := [2]
      looks := [⟨0, 2⟩] } :=
    (asleep.step (.finish (by decide))).step (.empty rfl)
  have told : BarrierReachable {
      barrier := { waiters := [{ id := 0, suspended := true, told := true }] }
      added := 2
      counted := 2
      emptied := some 2
      looks := [⟨0, 2⟩] } :=
    emptied.step (.tell 2 List.mem_cons_self)
  obtain ⟨_, _, exact, wakeful, _⟩ := barrier_awaits_all emptied (by decide)
  obtain ⟨_, _, _, _, settles⟩ := barrier_awaits_all told (by decide)
  obtain ⟨_, _, settled, passed⟩ := settles rfl rfl
  exact ⟨_, _, emptied, by decide, rfl, rfl, rfl, rfl, exact, wakeful, told, rfl, settled ▸ passed⟩

/-- Three additions bring a word around to zero, and nothing is done.  A waiter that looked before
the last of them sleeps with nobody about to tell it, and one that comes after it is through at
once. -/
theorem barrier_sleeps_of_word : ∃ s : BarrierRun, BarrierReachable s ∧
    s.added = UInt64.size ∧ s.counted = 0 ∧ s.barrier.pending = 0 ∧
    s.barrier.waiters = [{ id := 0, suspended := true, told := false }] ∧ s.tellers = [] ∧
    s.barrier.through = [1] ∧ ¬ s.Exact ∧ ¬ s.Wakeful := by
  have added := (BarrierReachable.ofCount 9223372036854775807).step (.add 9223372036854775807)
  have arrived := added.step (.arrive 0 List.not_mem_nil)
  have asleep : BarrierReachable {
      barrier := { pending := 18446744073709551614, waiters := [{ id := 0, suspended := true }] }
      added := 18446744073709551614
      looks := [⟨0, 18446744073709551614⟩] } :=
    arrived.step (.check { id := 0 } List.mem_cons_self rfl)
  have around : BarrierReachable {
      barrier := { waiters := [{ id := 0, suspended := true }] }
      added := 18446744073709551616
      looks := [⟨0, 18446744073709551614⟩] } :=
    asleep.step (.add 2)
  have second := around.step (.arrive 1 (by decide))
  have through : BarrierReachable {
      barrier := { waiters := [{ id := 0, suspended := true }], through := [1] }
      added := 18446744073709551616
      looks := [⟨1, 0⟩, ⟨0, 18446744073709551614⟩] } :=
    second.step (.check { id := 1 } (List.mem_cons_of_mem _ List.mem_cons_self) rfl)
  refine ⟨_, through, rfl, rfl, rfl, rfl, rfl, rfl, ?_, ?_⟩
  · exact fun exact : 0 + 0 = 18446744073709551616 => absurd exact (by decide)
  · intro wakeful
    rcases wakeful rfl _ List.mem_cons_self rfl with told | ⟨_, none_emptied, _⟩
    · cases told
    · cases none_emptied

end ChainIndex
