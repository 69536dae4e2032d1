import ChainIndex.Proofs.Work.Pool

/-!
# Workers, exits and the target

A scale call gives workers out or puts exits in, and stores its target at once.  The workers and the
exits follow later.  In between, the workers that took no exit are as many as the target and the
exits that wait (`Balanced`), and the count of live workers is exact.

Without a shutdown a pool changes in one direction at a time (`Steady`): a scale call is ignored
until the last one is through, so there are never workers that have not started beside exits.
-/

namespace ChainIndex

namespace Headcount

theorem toNat_increase {h : Headcount} (room : h.value.toNat < 65535) :
    h.increase.value.toNat = h.value.toNat + 1 := by
  have other : h.value ≠ 0xFFFF := by
    intro full
    rw [full] at room
    exact absurd room (by decide)
  rw [increase, if_neg other, UInt16.toNat_add]
  exact Nat.mod_eq_of_lt (Nat.add_lt_add_right room 1)

theorem toNat_decrease (h : Headcount) : h.decrease.value.toNat = h.value.toNat - 1 := by
  rw [decrease]
  split
  case isTrue none_alive => simp [none_alive]
  case isFalse some_alive =>
    have one : (1 : UInt16) ≤ h.value := by
      rw [UInt16.le_iff_toNat_le]
      have alive : h.value.toNat ≠ 0 := fun zero => some_alive (UInt16.toNat_inj.mp zero)
      exact Nat.one_le_iff_ne_zero.mpr alive
    exact UInt16.toNat_sub_of_le _ _ one

end Headcount

variable {κ J : Type}

/-- An exit weighs one. -/
def exitWeight : PoolItem J → Nat
  | .job _ => 0
  | .exit => 1

/-- The exits that wait for a worker. -/
def Pool.exits (p : Pool κ J) : Nat := p.waiting exitWeight

namespace PoolState

variable {s t : PoolState κ J}

structure Balanced (s : PoolState κ J) : Prop where
  counted : s.pool.headcount.value.toNat =
    s.pool.idle.length + s.pool.busy.length + s.leaving.length
  staffed : s.pool.unstarted.length + s.pool.idle.length + s.pool.busy.length =
    s.pool.target.toNat + s.pool.exits

/-- The workers that have started and are not gone. -/
def onDuty (s : PoolState κ J) : List Nat := s.pool.idle ++ s.pool.busy.map (·.1) ++ s.leaving

theorem ids_eq (s : PoolState κ J) : s.ids = s.pool.unstarted ++ s.onDuty := by
  rw [ids, onDuty, Pool.staff, List.append_assoc]

theorem length_onDuty (s : PoolState κ J) :
    s.onDuty.length = s.pool.idle.length + s.pool.busy.length + s.leaving.length := by
  rw [onDuty, List.length_append, List.length_append, List.length_map]

/-- How many workers were given out and are not gone. -/
def size (s : PoolState κ J) : Nat :=
  s.pool.unstarted.length + s.pool.idle.length + s.pool.busy.length + s.leaving.length

structure Steady (s : PoolState κ J) : Prop extends s.Balanced where
  bounded : s.size ≤ 65535
  oneWay : s.pool.unstarted = [] ∨ s.pool.exits = 0 ∧ s.leaving = []

/-- What a step does to the numbers of workers and exits. -/
inductive Moves (s t : PoolState κ J) : Prop
  | none (unstarted : t.pool.unstarted = s.pool.unstarted)
      (working : t.pool.idle.length + t.pool.busy.length = s.pool.idle.length + s.pool.busy.length)
      (leaving : t.leaving = s.leaving) (exits : t.pool.exits = s.pool.exits)
      (headcount : t.pool.headcount = s.pool.headcount)
  | start (unstarted : t.pool.unstarted.length + 1 = s.pool.unstarted.length)
      (working : t.pool.idle.length + t.pool.busy.length =
        s.pool.idle.length + s.pool.busy.length + 1)
      (leaving : t.leaving = s.leaving) (exits : t.pool.exits = s.pool.exits)
      (headcount : t.pool.headcount = s.pool.headcount.increase)
  | exit (unstarted : t.pool.unstarted = s.pool.unstarted)
      (working : t.pool.idle.length + t.pool.busy.length + 1 =
        s.pool.idle.length + s.pool.busy.length)
      (leaving : t.leaving.length = s.leaving.length + 1) (exits : t.pool.exits + 1 = s.pool.exits)
      (headcount : t.pool.headcount = s.pool.headcount)
  | leave (unstarted : t.pool.unstarted = s.pool.unstarted)
      (working : t.pool.idle.length + t.pool.busy.length = s.pool.idle.length + s.pool.busy.length)
      (leaving : t.leaving.length + 1 = s.leaving.length) (exits : t.pool.exits = s.pool.exits)
      (headcount : t.pool.headcount = s.pool.headcount.decrease)

namespace Moves

theorem balanced (moves : Moves s t) (target : t.pool.target = s.pool.target)
    (bounded : t.onDuty.length ≤ 65535) (h : s.Balanced) : t.Balanced := by
  obtain ⟨counted, staffed⟩ := h
  rw [length_onDuty] at bounded
  cases moves with
  | none unstarted working leaving exits headcount =>
    refine ⟨?_, ?_⟩
    · rw [headcount, leaving, counted, working]
    · rw [target, unstarted, exits]
      omega
  | start unstarted working leaving exits headcount =>
    refine ⟨?_, ?_⟩
    · rw [leaving, working] at bounded
      rw [headcount, leaving, Headcount.toNat_increase (by omega), counted]
      omega
    · rw [target, exits]
      omega
  | exit unstarted working leaving exits headcount =>
    refine ⟨?_, ?_⟩
    · rw [headcount, counted]
      omega
    · rw [target, unstarted]
      omega
  | leave unstarted working leaving exits headcount =>
    refine ⟨?_, ?_⟩
    · rw [headcount, Headcount.toNat_decrease, counted]
      omega
    · rw [target, unstarted, exits]
      omega

theorem size_le (moves : Moves s t) : t.size ≤ s.size := by
  rw [size, size]
  cases moves with
  | none unstarted working leaving =>
    rw [unstarted, leaving]
    omega
  | start _ _ leaving =>
    rw [leaving]
    omega
  | exit unstarted =>
    rw [unstarted]
    omega
  | leave unstarted =>
    rw [unstarted]
    omega

theorem steady (moves : Moves s t) (target : t.pool.target = s.pool.target) (h : s.Steady) :
    t.Steady := by
  have bounded : t.size ≤ 65535 := Nat.le_trans moves.size_le h.bounded
  have fewer : t.onDuty.length ≤ t.size := by
    rw [length_onDuty, size]
    omega
  refine ⟨moves.balanced target (Nat.le_trans fewer bounded) h.toBalanced, bounded, ?_⟩
  cases moves with
  | none unstarted _ leaving exits =>
    rw [unstarted, leaving, exits]
    exact h.oneWay
  | start unstarted _ leaving exits =>
    rw [leaving, exits]
    rcases h.oneWay with started | still
    · simp [started] at unstarted
    · exact .inr still
  | exit unstarted _ _ exits =>
    rw [unstarted]
    rcases h.oneWay with started | still
    · exact .inl started
    · omega
  | leave unstarted _ leaving =>
    rw [unstarted]
    rcases h.oneWay with started | still
    · exact .inl started
    · simp [still.2] at leaving

end Moves

/-! ## Steps -/

/-- No step changes the target or the capacity. -/
theorem moves_step (step : PoolStep s t) :
    t.pool.target = s.pool.target ∧ t.pool.capacity = s.pool.capacity ∧ Moves s t := by
  cases step with
  | letIn order goes =>
    have exits := Pool.waiting_letIn goes exitWeight
    rw [Pool.waiting_inLine order] at exits
    obtain ⟨_, _, _, _, _, ⟨_, rfl⟩ | ⟨_, _, _, rfl⟩⟩ := Pool.letIn?_some goes
    · exact ⟨rfl, rfl, .none rfl rfl rfl exits rfl⟩
    · exact ⟨rfl, rfl, .none rfl rfl rfl exits rfl⟩
  | start given =>
    rw [Pool.start_of_mem given]
    refine ⟨rfl, rfl, .start ?_ ?_ rfl rfl rfl⟩
    · have positive := List.length_pos_of_mem given
      rw [List.length_erase_of_mem given]
      omega
    · simp only [List.length_append, List.length_singleton]
      omega
  | @takeJob line worker j pool order takes =>
    have exits : s.pool.exits = _ := Pool.waiting_takeJob takes exitWeight
    have length := order.length_eq
    obtain ⟨idle, _, hidle, _, rfl⟩ := Pool.take?_job takes
    have hidle : line = worker :: idle := hidle
    rw [hidle, List.length_cons] at length
    refine ⟨rfl, rfl, .none rfl ?_ rfl exits.symm rfl⟩
    show idle.length + (s.pool.busy ++ [(worker, j)]).length = _
    rw [List.length_append, List.length_singleton]
    omega
  | @takeExit line worker pool order takes =>
    have exits : s.pool.exits = _ := Pool.waiting_takeExit takes exitWeight
    have length := order.length_eq
    obtain ⟨idle, _, hidle, _, rfl⟩ := Pool.take?_exit takes
    have hidle : line = worker :: idle := hidle
    rw [hidle, List.length_cons] at length
    refine ⟨rfl, rfl, .exit rfl ?_ rfl exits.symm rfl⟩
    show idle.length + s.pool.busy.length + 1 = _
    omega
  | leave out =>
    refine ⟨rfl, rfl, .leave rfl rfl ?_ rfl rfl⟩
    have positive := List.length_pos_of_mem out
    rw [List.length_erase_of_mem out]
    omega

theorem moves_finish {w : Nat} {j : J} (distinct : (s.pool.busy.map (·.1)).Nodup)
    (busy : (w, j) ∈ s.pool.busy) : Moves s ⟨s.pool.finish w, s.leaving⟩ := by
  have fewer : s.pool.busy.length = ((w, j) :: s.pool.busy.filter fun b => b.1 ≠ w).length :=
    (perm_cons_filter (·.1) busy distinct).length_eq
  rw [Pool.finish_of_mem busy]
  refine .none rfl ?_ rfl rfl rfl
  show (s.pool.idle ++ [w]).length + (s.pool.busy.filter fun b => b.1 ≠ w).length = _
  rw [List.length_cons] at fewer
  rw [List.length_append, List.length_singleton]
  omega

/-- A caller that lines up with jobs moves nothing. -/
theorem moves_lineUp (who : κ) {items : List (PoolItem J)} (jobs : ∀ item ∈ items, item ≠ .exit) :
    Moves s ⟨s.pool.lineUp who items, s.leaving⟩ := by
  have exits : (s.pool.lineUp who items).exits = s.pool.exits := by
    have light : (items.map exitWeight).sum = 0 := by
      refine List.sum_eq_zero ?_
      intro weight hweight
      obtain ⟨item, member, rfl⟩ := List.mem_map.mp hweight
      cases item with
      | job => rfl
      | exit => exact absurd rfl (jobs _ member)
    rw [Pool.exits, Pool.waiting_lineUp, light, Nat.add_zero, Pool.exits]
  obtain ⟨line, same⟩ := s.pool.lineUp_eq who items
  rw [same] at exits ⊢
  exact .none rfl rfl rfl exits rfl

/-! ## Calls -/

/-- The pool after a scale call has lined up with its exits. -/
def scaled (s : PoolState κ J) (who : κ) (count : UInt16) : PoolState κ J :=
  ⟨(s.pool.setWorkers count).2.2.lineUp who (List.replicate (s.pool.setWorkers count).2.1 .exit),
    s.leaving⟩

/-- The pool after a shutdown has lined up with its exits. -/
def shut (s : PoolState κ J) (who : κ) : PoolState κ J :=
  ⟨s.pool.shutdown.2.lineUp who (List.replicate s.pool.shutdown.1 .exit), s.leaving⟩

theorem scaled_eq (s : PoolState κ J) (who : κ) (count : UInt16) :
    ∃ line, s.scaled who count = ⟨(s.pool.setWorkers count).2.2.inLine line, s.leaving⟩ := by
  obtain ⟨line, lined⟩ := (s.pool.setWorkers count).2.2.lineUp_eq who
    (List.replicate (s.pool.setWorkers count).2.1 .exit)
  exact ⟨line, by rw [scaled, lined]⟩

theorem shut_eq (s : PoolState κ J) (who : κ) :
    ∃ line, s.shut who = ⟨s.pool.shutdown.2.inLine line, s.leaving⟩ := by
  obtain ⟨line, lined⟩ := s.pool.shutdown.2.lineUp_eq who (List.replicate s.pool.shutdown.1 .exit)
  exact ⟨line, by rw [shut, lined]⟩

/-- A scale call that is not ignored reaches its count by workers that are given out, or by exits. -/
theorem scaled_cases (s : PoolState κ J) (who : κ) (count : UInt16) :
    s.scaled who count = s ∨
      s.pool.workers = s.pool.target ∧ (s.scaled who count).pool.target = count ∧
      (s.scaled who count).pool.unstarted.length =
        s.pool.unstarted.length + (count.toNat - s.pool.target.toNat) ∧
      (s.scaled who count).pool.exits = s.pool.exits + (s.pool.target.toNat - count.toNat) ∧
      (s.scaled who count).pool.idle = s.pool.idle ∧ (s.scaled who count).pool.busy = s.pool.busy ∧
      (s.scaled who count).pool.headcount = s.pool.headcount := by
  rcases s.pool.setWorkers_cases count with ⟨_, same⟩ | ⟨settled, spawned, length, same⟩
  · left
    rw [scaled, same]
    rfl
  · right
    rw [settled] at length same
    have exits := Pool.waiting_lineUp exitWeight (s.pool.setWorkers count).2.2 who
      (List.replicate (s.pool.setWorkers count).2.1 .exit)
    rw [List.map_replicate, List.sum_replicate_nat] at exits
    obtain ⟨line, lined⟩ := (s.pool.setWorkers count).2.2.lineUp_eq who
      (List.replicate (s.pool.setWorkers count).2.1 .exit)
    refine ⟨settled, ?_⟩
    simp only [scaled]
    rw [lined] at exits ⊢
    rw [same] at exits ⊢
    refine ⟨rfl, ?_, ?_, rfl, rfl, rfl⟩
    · show (s.pool.unstarted ++ spawned).length = _
      rw [List.length_append, length]
    · exact exits.trans (by rw [exitWeight, Nat.mul_one]; rfl)

theorem scaled_capacity (s : PoolState κ J) (who : κ) (count : UInt16) :
    (s.scaled who count).pool.capacity = s.pool.capacity := by
  obtain ⟨line, lined⟩ := s.scaled_eq who count
  rcases s.pool.setWorkers_cases count with ⟨_, same⟩ | ⟨_, _, _, same⟩
  · rw [lined, same]
    rfl
  · rw [lined, same]
    rfl

theorem Balanced.scaled (h : s.Balanced) (who : κ) (count : UInt16) : (s.scaled who count).Balanced := by
  obtain ⟨counted, staffed⟩ := h
  rcases s.scaled_cases who count with same | ⟨_, target, unstarted, exits, idle, busy, headcount⟩
  · rw [same]
    exact ⟨counted, staffed⟩
  · refine ⟨?_, ?_⟩
    · rw [headcount, idle, busy]
      exact counted
    · rw [target, unstarted, exits, idle, busy]
      omega

/-- A shutdown puts in as many exits as it takes off the target. -/
theorem shut_exits (s : PoolState κ J) (who : κ) :
    (s.shut who).pool.exits = s.pool.exits + s.pool.target.toNat := by
  have exits := Pool.waiting_lineUp exitWeight s.pool.shutdown.2 who
    (List.replicate s.pool.shutdown.1 .exit)
  rw [List.map_replicate, List.sum_replicate_nat, exitWeight, Nat.mul_one] at exits
  exact exits

theorem Balanced.shut (h : s.Balanced) (who : κ) : (s.shut who).Balanced := by
  have exits := s.shut_exits who
  obtain ⟨line, lined⟩ := s.shut_eq who
  rw [lined] at exits ⊢
  refine ⟨h.counted, ?_⟩
  have staffed := h.staffed
  show s.pool.unstarted.length + s.pool.idle.length + s.pool.busy.length = 0 + _
  omega

theorem Balanced.target_eq (h : s.Balanced) (settled : s.pool.workers = s.pool.target) :
    s.pool.target.toNat = s.pool.idle.length + s.pool.busy.length + s.leaving.length := by
  rw [← settled]
  exact h.counted

/-- Where a scale call is not ignored, every worker has started and no exit is on its way. -/
theorem Steady.settled (h : s.Steady) (settled : s.pool.workers = s.pool.target) :
    s.pool.unstarted = [] ∧ s.pool.exits = 0 ∧ s.leaving = [] := by
  have counted := h.target_eq settled
  have staffed := h.staffed
  rcases h.oneWay with started | ⟨still, gone⟩
  · rw [started, List.length_nil] at staffed
    exact ⟨started, by omega, List.length_eq_zero_iff.mp (by omega)⟩
  · rw [gone, List.length_nil] at counted
    exact ⟨List.length_eq_zero_iff.mp (by omega), still, gone⟩

theorem Steady.scaled (h : s.Steady) (who : κ) (count : UInt16) : (s.scaled who count).Steady := by
  refine ⟨h.toBalanced.scaled who count, ?_, ?_⟩
  · rcases s.scaled_cases who count with same | ⟨settled, _, unstarted, _, idle, busy, _⟩
    · rw [same]
      exact h.bounded
    · have bounded := h.bounded
      have counted := h.target_eq settled
      have before := count.toNat_lt
      have started := congrArg List.length (h.settled settled).1
      have leaving : (s.scaled who count).leaving = s.leaving := rfl
      rw [size] at bounded ⊢
      rw [List.length_nil] at started
      rw [unstarted, idle, busy, leaving]
      omega
  · rcases s.scaled_cases who count with same | ⟨settled, _, unstarted, exits, _⟩
    · rw [same]
      exact h.oneWay
    · obtain ⟨started, still, gone⟩ := h.settled settled
      rw [started, List.length_nil] at unstarted
      rcases Nat.le_total count.toNat s.pool.target.toNat with fewer | more
      · exact .inl (List.length_eq_zero_iff.mp (by omega))
      · exact .inr ⟨by omega, gone⟩

/-! ## Progress -/

/-- Where a worker is idle and something waits, in the queue or for room, the pool makes a step. -/
theorem step_of_idle (room : 0 < s.pool.capacity) (free : s.pool.idle ≠ [])
    (waits : s.pool.senders ≠ [] ∨ s.pool.queue ≠ []) : ∃ t, PoolStep s t := by
  obtain ⟨w, idle, hidle⟩ := List.exists_cons_of_ne_nil free
  cases hqueue : s.pool.queue with
  | cons item queue =>
    obtain ⟨pool, takes⟩ := Pool.take?_of_head (p := s.pool.inTurn s.pool.idle) hidle hqueue
    cases item with
    | job j => exact ⟨_, .takeJob (.refl _) takes⟩
    | exit => exact ⟨_, .takeExit (.refl _) takes⟩
  | nil =>
    have goes : ∃ done pool, (s.pool.inLine s.pool.senders).letIn? = some (done, pool) := by
      refine Pool.letIn?_of_room (p := s.pool.inLine s.pool.senders) ?_ ?_
      · show s.pool.queue.length < s.pool.capacity
        rw [hqueue]
        exact room
      · rcases waits with line | line
        · exact line
        · exact absurd hqueue line
    obtain ⟨_, _, goes⟩ := goes
    exact ⟨_, .letIn (.refl _) goes⟩

/-- In a pool that keeps a worker, something that waits for a worker or for room makes a step. -/
theorem Steady.step (h : s.Steady) (room : 0 < s.pool.capacity) (hired : s.pool.target ≠ 0)
    (free : s.pool.busy = []) (waits : s.pool.senders ≠ [] ∨ s.pool.queue ≠ []) :
    ∃ t, PoolStep s t := by
  have staffed := h.staffed
  have wanted : s.pool.target.toNat ≠ 0 := fun zero => hired (UInt16.toNat_inj.mp zero)
  cases hunstarted : s.pool.unstarted with
  | cons w rest => exact ⟨_, .start (by rw [hunstarted]; exact List.mem_cons_self)⟩
  | nil =>
    refine step_of_idle room ?_ waits
    intro none_idle
    simp only [hunstarted, none_idle, free, List.length_nil] at staffed
    omega

end PoolState

end ChainIndex
