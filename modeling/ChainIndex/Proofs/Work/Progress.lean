import ChainIndex.Proofs.Work.Balance
import ChainIndex.Proofs.Work.Ranges

/-!
# A full pool holds no range up

A drainer waits for room in the pool and then for its barrier, a scale call waits for room too, and
exits stand in the same queue as jobs.  Still somebody can always go on while a request has no answer
(`range_never_stuck`).  A worker never waits for anything but the answer of a node.  And while no slot
is held, what waits for a worker finds one, since the workers without an exit are as many as the
target and the exits that wait.
-/

namespace ChainIndex

variable {κ ι α ρ : Type}

namespace FanState

/-- The pool was never shut down, and its queue has room for an item. -/
structure Steady (s : FanState κ ι α ρ) : Prop where
  crew : s.crew.Steady
  room : 0 < s.fan.pool.capacity

namespace Steady

variable {s t : FanState κ ι α ρ}

theorem congr (h : s.Steady) (crew : t.crew = s.crew) : t.Steady where
  crew := crew ▸ h.crew
  room := by
    have pool : t.fan.pool = s.fan.pool := congrArg PoolState.pool crew
    exact pool ▸ h.room

theorem start (capacity : Nat) : ({ fan := Fanout.ofCapacity capacity } : FanState κ ι α ρ).Steady where
  crew := ⟨⟨rfl, rfl⟩, Nat.zero_le _, .inl rfl⟩
  room := Nat.lt_of_lt_of_le Nat.zero_lt_one (Nat.le_max_right capacity 1)

theorem lineUp (h : s.Steady) (who : κ) {items : List (PoolItem (FanJob ι ρ))}
    (jobs : ∀ item ∈ items, item ≠ .exit) : (s.lineUp who items).Steady := by
  obtain ⟨line, same⟩ := s.fan.pool.lineUp_eq who items
  refine ⟨(PoolState.moves_lineUp who jobs).steady ?_ h.crew, ?_⟩
  · show (s.fan.pool.lineUp who items).target = _
    rw [same]
    rfl
  · show 0 < (s.fan.pool.lineUp who items).capacity
    rw [same]
    exact h.room

theorem scale (h : s.Steady) (who : κ) (count : UInt16) :
    (s.withCrew (s.crew.scaled who count)).Steady := by
  refine ⟨h.crew.scaled who count, ?_⟩
  show 0 < (s.crew.scaled who count).pool.capacity
  rw [PoolState.scaled_capacity]
  exact h.room

theorem pool (h : s.Steady) {crew : PoolState κ (FanJob ι ρ)} (step : PoolStep s.crew crew) :
    (s.withCrew crew).Steady := by
  obtain ⟨target, capacity, moves⟩ := PoolState.moves_step step
  refine ⟨moves.steady target h.crew, ?_⟩
  show 0 < crew.pool.capacity
  rw [capacity]
  exact h.room

theorem finish (h : s.Steady) (staffed : s.Staffed) {w : Nat} {j : FanJob ι ρ}
    (busy : (w, j) ∈ s.fan.pool.busy) :
    ((s.withCrew ⟨s.fan.pool.finish w, s.leaving⟩).reaches w .fetching).Steady := by
  have moves := PoolState.moves_finish staffed.distinct.busy busy
  refine ⟨moves.steady ?_ h.crew, ?_⟩
  · show (s.fan.pool.finish w).target = _
    rw [Pool.finish_of_mem busy]
    rfl
  · show 0 < (s.fan.pool.finish w).capacity
    rw [Pool.finish_of_mem busy]
    exact h.room

end Steady

end FanState

theorem slotJobs_ne_exit (h : SlotHandle) (numbers : List UInt64) :
    ∀ item ∈ (Fanout.slotJobs h numbers : List (PoolItem (FanJob ι ρ))), item ≠ .exit := by
  intro item member
  obtain ⟨_, _, rfl⟩ := List.mem_map.mp member
  nofun

variable {s t : FanState κ ι α ρ} {fetches : UInt64 → α → Prop}

theorem FanCall.steady (call : FanCall False s t) (h : s.Steady) : t.Steady := by
  cases call with
  | enqueue => exact h.congr rfl
  | again => exact h.congr rfl
  | ask who => exact h.lineUp who (by simp)
  | scale who => exact h.scale who _
  | shutdown _ allowed => exact allowed.elim
  | take => exact h.congr rfl

namespace FanState

/-- Where a slot is not counted down, a job waits or a worker is on one. -/
theorem work_of_uncounted (left : s.uncounted (fun _ => 1) ≠ 0) :
    s.fan.pool.senders ≠ [] ∨ s.fan.pool.queue ≠ [] ∨ s.fan.pool.busy ≠ [] := by
  by_contra idle
  simp only [not_or, not_not] at idle
  obtain ⟨line, queue, busy⟩ := idle
  refine left ?_
  rw [uncounted, due, Pool.waiting, Pool.held, line, queue, busy]
  rfl

end FanState

variable [BEq κ] {caller : Nat → κ}

theorem FanWork.steady (work : FanWork caller fetches s t) (staffed : s.Staffed) (h : s.Steady) :
    t.Steady := by
  cases work with
  | send => exact h.congr rfl
  | receive => exact h.congr rfl
  | @allocate d r k cache =>
    have waits : ((s.withCache cache).waitsFor d k).Steady := h.congr rfl
    exact waits.lineUp _ (slotJobs_ne_exit k r.numbers)
  | decline => exact h.congr rfl
  | pass => exact h.congr rfl
  | retire => exact h.congr rfl
  | pool step => exact h.pool step
  | write => exact h.congr rfl
  | count => exact h.congr rfl
  | finish busy => exact h.finish staffed busy

namespace FanState

theorem Reachable.steady (reach : Reachable caller fetches False s) : s.Steady := by
  induction reach with
  | start capacity => exact .start capacity
  | call _ call ih => exact call.steady ih
  | work before work ih => exact work.steady before.sound.staffed ih

/-! ## Somebody can go on -/

/-- A worker that is on a job can go on, where every fetch brings something. -/
theorem busy_step (returns : ∀ n, ∃ a, fetches n a) {w : Nat} {j : FanJob ι ρ}
    (busy : (w, j) ∈ s.fan.pool.busy) : ∃ t, FanWork caller fetches s t := by
  cases j with
  | single ask returns => exact ⟨_, .finish busy nofun⟩
  | slot h i n =>
    let x : SlotTask := ⟨h, i, n⟩
    cases stage : s.stage w with
    | fetching =>
      obtain ⟨a, result⟩ := returns n
      exact ⟨_, .write (t := x) busy stage result⟩
    | written => exact ⟨_, .count (t := x) busy stage⟩
    | counted => exact ⟨_, .finish busy fun _ _ _ _ => stage⟩

/-- Somebody can go on while a job waits or a worker is on one. -/
theorem crew_step (steady : s.Steady) (hired : s.fan.pool.target ≠ 0)
    (returns : ∀ n, ∃ a, fetches n a)
    (work : s.fan.pool.senders ≠ [] ∨ s.fan.pool.queue ≠ [] ∨ s.fan.pool.busy ≠ []) :
    ∃ t, FanWork caller fetches s t := by
  cases hbusy : s.fan.pool.busy with
  | cons b rest => exact busy_step returns (hbusy ▸ List.mem_cons_self)
  | nil =>
    have waits : s.fan.pool.senders ≠ [] ∨ s.fan.pool.queue ≠ [] := by
      rcases work with line | queued | held
      · exact .inl line
      · exact .inr queued
      · exact absurd hbusy held
    obtain ⟨crew, step⟩ := steady.crew.step steady.room hired hbusy waits
    exact ⟨_, .pool step⟩

/-- While a request has no answer, somebody can go on: no order of steps leads to a standstill, for
a pool that is never scaled to zero or shut down, and a node that answers every call. -/
theorem range_never_stuck (returns : ∀ n, ∃ a, fetches n a)
    (reach : Reachable caller fetches False s) (hired : s.fan.pool.target ≠ 0)
    (waits : s.answers.length < s.asked.length) : ∃ t, FanWork caller fetches s t := by
  have sound := reach.sound
  have steady := reach.steady
  have some_waits : s.unanswered ≠ [] := by
    intro none_waits
    have length := sound.tracked.length_eq
    rw [none_waits, List.append_nil, List.length_map] at length
    omega
  by_cases unsent : s.fan.queue.sending = []
  · -- every accepted request is in the channel or with the drainer
    cases sound.drains with
    | idle off =>
      rw [unanswered_of_off off, unsent, List.nil_append] at some_waits
      obtain ⟨r, rest, line⟩ := List.exists_cons_of_ne_nil some_waits
      obtain ⟨d, queue, received⟩ := RangeQueue.receive?_of_line sound.queued.sound off line
      exact ⟨_, .receive received⟩
    | @received d r on free silent =>
      have there : (d, r) ∈ s.fan.queue.draining := on ▸ List.mem_cons_self
      cases allocated : s.fan.cache.allocate r.id r.numbers.length with
      | ok array => exact ⟨_, .allocate there (by simp [free]) (by simp [silent]) allocated⟩
      | error fault => exact ⟨_, .decline there (by simp [free]) (by simp [silent]) allocated⟩
    | @filling d r h slots on held silent fills =>
      by_cases sent : s.fan.pool.isSending (caller d) = false
      · by_cases done : s.fan.queue.itemsLeft r.id = 0
        · exact ⟨_, .pass (on ▸ List.mem_cons_self) (held ▸ List.mem_cons_self) (by simp [silent])
            sent done⟩
        · -- the barrier counts exactly the slots that still have work
          have left := fills.uncounted.symm ▸ done
          exact crew_step steady hired returns (work_of_uncounted left)
      · have line : s.fan.pool.senders ≠ [] := by
          intro empty
          simp [Pool.isSending, empty] at sent
        exact crew_step steady hired returns (.inl line)
    | replied on told => exact ⟨_, .retire (told ▸ List.mem_cons_self)⟩
  · obtain ⟨r, rest, line⟩ := List.exists_cons_of_ne_nil unsent
    exact ⟨_, .send (line ▸ List.mem_cons_self)⟩

/-- A request for two blocks fills a queue with room for one job. -/
theorem full_pool_reached :
    ∃ s : FanState Nat Unit Nat Nat, Reachable id (fun n a => a = 10 * n.toNat) False s ∧
      s.fan.pool.queue.length = s.fan.pool.capacity ∧ s.fan.pool.target = 1 ∧
      s.answers.length = 0 ∧ s.asked.length = 1 := by
  let r : RangeRequest Nat := ⟨"a", [7, 8], some 0⟩
  have scaled : Reachable (κ := Nat) (ι := Unit) (α := Nat) (ρ := Nat) id
      (fun n a => a = 10 * n.toNat) False _ :=
    .call (.start 1) (.scale 0 (.inl (by decide : (1 : UInt16) ≠ 0)))
  have asked := scaled.call (.enqueue (r := r) rfl)
  have sent := asked.work (.send (r := r) List.mem_cons_self)
  have received := sent.work (.receive (d := 1) (r := r) rfl)
  have allocated := received.work
    (.allocate (d := 1) (r := r) (h := ⟨"a", 1, 2⟩) List.mem_cons_self nofun nofun rfl)
  have queued := allocated.work (.pool (.letIn (.refl _) rfl))
  exact ⟨_, queued, rfl, rfl, rfl, rfl⟩

theorem range_never_stuck_of_full_pool :
    ∃ s : FanState Nat Unit Nat Nat, s.fan.pool.queue.length = s.fan.pool.capacity ∧
      ∃ t, FanWork id (fun n a => a = 10 * n.toNat) s t := by
  obtain ⟨s, reach, full, hired, silent, asked⟩ := full_pool_reached
  refine ⟨s, full, range_never_stuck (fun n => ⟨_, rfl⟩) reach ?_ ?_⟩
  · rw [hired]
    decide
  · rw [silent, asked]
    exact Nat.zero_lt_one

end FanState

end ChainIndex
