import ChainIndex.Proofs.Work.Scaling

/-!
# Room in the queue of a pool

A pool lets its line in as far as there is room, whenever something changes (`Pool.Tight`).  So a
caller with items gets them all in at once exactly where the queue has room for them.  Otherwise it
stands in line until items leave the queue, and only workers take items out.
-/

namespace ChainIndex

namespace Pool

variable {κ J : Type} {p p' : Pool κ J}

/-- Callers stand in line only where the queue is full, and none without an item. -/
structure Tight (p : Pool κ J) : Prop where
  filled : p.Filled
  full : p.senders ≠ [] → p.capacity ≤ p.queue.length

/-- The callers in line. -/
def callers (p : Pool κ J) : List κ := p.senders.map (·.caller)

theorem tight_ofCapacity (capacity : Nat) : (ofCapacity capacity : Pool κ J).Tight :=
  ⟨nofun, fun line => absurd rfl line⟩

theorem isSending_iff [BEq κ] [LawfulBEq κ] {caller : κ} :
    p.isSending caller = true ↔ caller ∈ p.callers := by
  simp only [isSending, callers, List.any_eq_true, List.mem_map, beq_iff_eq]

theorem Tight.congr (h : p.Tight) (capacity : p'.capacity = p.capacity) (queue : p'.queue = p.queue)
    (senders : p'.senders = p.senders) : p'.Tight := by
  refine ⟨?_, fun line => ?_⟩
  · rw [Filled, senders]
    exact h.filled
  · rw [capacity, queue]
    exact h.full (senders ▸ line)

/-! ## Letting the line in -/

theorem letIn?_eq_none : p.letIn? = none ↔ p.capacity ≤ p.queue.length ∨ p.senders = [] := by
  constructor
  · intro stuck
    by_contra goes
    rw [not_or] at goes
    obtain ⟨done, next, lets⟩ := letIn?_of_room (Nat.lt_of_not_le goes.1) goes.2
    rw [stuck] at lets
    cases lets
  · intro stuck
    cases lets : p.letIn? with
    | none => rfl
    | some next =>
      obtain ⟨done, q⟩ := next
      obtain ⟨room, caller, items, rest, line, _⟩ := letIn?_some lets
      rcases stuck with full | empty
      · exact absurd room (Nat.not_lt.mpr full)
      · rw [empty] at line
        cases line

theorem letInAll_of_none (stuck : p.letIn? = none) (n : Nat) : p.letInAll n = ([], p) := by
  cases n with
  | zero => rfl
  | succ n => rw [letInAll, stuck]

theorem backlog_eq (p : Pool κ J) :
    p.backlog = (p.senders.map fun s => s.items.length + 1).sum := by
  rw [backlog]
  induction p.senders with
  | nil => rfl
  | cons s rest ih => rw [List.foldr_cons, ih, List.map_cons, List.sum_cons]

/-- Callers that get in leave the workers alone. -/
theorem letIn?_frame {done : Option κ} (goes : p.letIn? = some (done, p')) :
    p'.capacity = p.capacity ∧ p'.staff = p.staff := by
  obtain ⟨_, _, _, _, _, ⟨_, rfl⟩ | ⟨_, _, _, rfl⟩⟩ := letIn?_some goes
  · exact ⟨rfl, rfl⟩
  · exact ⟨rfl, rfl⟩

/-- The first in line puts an item in, and gets no items in return. -/
theorem letIn?_line {done : Option κ} (goes : p.letIn? = some (done, p')) :
    p'.backlog < p.backlog ∧ p'.callers ⊆ p.callers ∧ (p.Filled → p'.Filled) := by
  obtain ⟨_, caller, items, rest, line, moved⟩ := letIn?_some goes
  rcases moved with ⟨rfl, rfl⟩ | ⟨item, more, rfl, rfl⟩
  · refine ⟨?_, ?_, fun filled x hx => filled x ?_⟩
    · simp only [backlog_eq, line, List.map_cons, List.sum_cons, List.length_nil]
      omega
    · simp only [callers, line, List.map_cons]
      exact List.subset_cons_self _ _
    · rw [line]
      exact List.mem_cons_of_mem _ hx
  · cases more with
    | nil =>
      refine ⟨?_, ?_, fun filled x hx => filled x ?_⟩
      · simp [backlog_eq, line]
      · simp [callers, line]
      · rw [line]
        simpa using Or.inr hx
    | cons next more =>
      refine ⟨?_, ?_, fun filled x hx => ?_⟩
      · simp [backlog_eq, line]
        omega
      · simp [callers, line]
      · rcases List.mem_append.mp hx with others | last
        · exact filled x (line ▸ List.mem_cons_of_mem _ others)
        · rw [List.mem_singleton.mp last]
          exact List.cons_ne_nil next more

theorem letInAll_frame (n : Nat) (p : Pool κ J) :
    (p.letInAll n).2.capacity = p.capacity ∧ (p.letInAll n).2.staff = p.staff := by
  induction n generalizing p with
  | zero => exact ⟨rfl, rfl⟩
  | succ n ih =>
    rw [letInAll]
    cases goes : p.letIn? with
    | none => exact ⟨rfl, rfl⟩
    | some next =>
      obtain ⟨done, q⟩ := next
      obtain ⟨capacity, staff⟩ := letIn?_frame goes
      obtain ⟨capacity', staff'⟩ := ih q
      exact ⟨capacity'.trans capacity, staff'.trans staff⟩

theorem callers_letInAll (n : Nat) (p : Pool κ J) : (p.letInAll n).2.callers ⊆ p.callers := by
  induction n generalizing p with
  | zero => exact List.Subset.refl _
  | succ n ih =>
    rw [letInAll]
    cases goes : p.letIn? with
    | none => exact List.Subset.refl _
    | some next =>
      obtain ⟨done, q⟩ := next
      obtain ⟨_, callers, _⟩ := letIn?_line goes
      exact List.Subset.trans (ih q) callers

/-- After as many steps as there are items in line, the queue is full or the line is empty. -/
theorem tight_letInAll (filled : p.Filled) {n : Nat} (enough : p.backlog ≤ n) :
    (p.letInAll n).2.Tight := by
  induction n generalizing p with
  | zero =>
    refine ⟨filled, fun line => ?_⟩
    obtain ⟨s, rest, senders⟩ := List.exists_cons_of_ne_nil line
    rw [backlog_eq, show p.senders = s :: rest from senders, List.map_cons, List.sum_cons] at enough
    omega
  | succ n ih =>
    rw [letInAll]
    cases goes : p.letIn? with
    | none =>
      refine ⟨filled, fun line => ?_⟩
      exact (letIn?_eq_none.mp goes).resolve_right line
    | some next =>
      obtain ⟨done, q⟩ := next
      obtain ⟨less, _, kept⟩ := letIn?_line goes
      exact ih (kept filled) (by omega)

/-! ## Calls and workers -/

theorem send_cons (p : Pool κ J) (caller : κ) (item : PoolItem J) (items : List (PoolItem J)) :
    p.send caller (item :: items) =
      (p.lineUp caller (item :: items)).letInAll (p.lineUp caller (item :: items)).backlog := rfl

theorem Tight.send (h : p.Tight) (caller : κ) (items : List (PoolItem J)) :
    (p.send caller items).2.Tight := by
  cases items with
  | nil => exact h
  | cons item items => exact tight_letInAll (h.filled.lineUp caller _) (Nat.le_refl _)

@[simp] theorem capacity_send (p : Pool κ J) (caller : κ) (items : List (PoolItem J)) :
    (p.send caller items).2.capacity = p.capacity := by
  cases items with
  | nil => rfl
  | cons item items => exact (letInAll_frame _ _).1

@[simp] theorem staff_send (p : Pool κ J) (caller : κ) (items : List (PoolItem J)) :
    (p.send caller items).2.staff = p.staff := by
  cases items with
  | nil => rfl
  | cons item items => exact (letInAll_frame _ _).2

/-- Behind a line, a caller changes nothing but the line. -/
theorem Tight.send_of_line (h : p.Tight) (line : p.senders ≠ []) (caller : κ) (item : PoolItem J)
    (items : List (PoolItem J)) :
    (p.send caller (item :: items)).2 = p.lineUp caller (item :: items) := by
  rw [send_cons, letInAll_of_none]
  exact letIn?_eq_none.mpr (.inl (h.full line))

section Waiting

variable [BEq κ] [LawfulBEq κ] {caller other : κ}

theorem isSending_lineUp (p : Pool κ J) (item : PoolItem J) (items : List (PoolItem J)) :
    (p.lineUp caller (item :: items)).isSending other = true ↔
      p.isSending other = true ∨ other = caller := by
  simp only [isSending_iff, callers, lineUp, List.isEmpty_cons, Bool.false_eq_true, if_false,
    List.map_append, List.map_singleton, List.mem_append, List.mem_singleton]

/-- Who waits is not let in or made to wait by what another caller sends. -/
theorem Tight.isSending_send_of_ne (h : p.Tight) (different : other ≠ caller)
    (items : List (PoolItem J)) : (p.send caller items).2.isSending other = p.isSending other := by
  cases items with
  | nil => rfl
  | cons item items =>
    rw [Bool.eq_iff_iff]
    constructor
    · intro waits
      have lined := callers_letInAll _ _ (isSending_iff.mp waits)
      exact ((isSending_lineUp p item items).mp (isSending_iff.mpr lined)).resolve_right different
    · intro waits
      have line : p.senders ≠ [] := by
        intro empty
        simp [isSending, empty] at waits
      rw [h.send_of_line line]
      exact (isSending_lineUp p item items).mpr (.inl waits)

omit [BEq κ] [LawfulBEq κ] in
/-- A caller that is alone puts all in, or as much as fits. -/
theorem letInAll_alone {items : List (PoolItem J)} {n : Nat} (some : items ≠ [])
    (enough : items.length ≤ n) (alone : p.senders = [⟨caller, items⟩]) :
    (p.queue.length + items.length ≤ p.capacity ∧
        (p.letInAll n).2 = { p with queue := p.queue ++ items, senders := [] }) ∨
      (p.capacity < p.queue.length + items.length ∧ (p.letInAll n).2.callers = [caller]) := by
  induction n generalizing p items with
  | zero => exact absurd (List.eq_nil_of_length_eq_zero (Nat.le_zero.mp enough)) some
  | succ n ih =>
    obtain ⟨item, more, rfl⟩ := List.exists_cons_of_ne_nil some
    rw [List.length_cons] at enough ⊢
    by_cases full : p.capacity ≤ p.queue.length
    · refine .inr ⟨by omega, ?_⟩
      rw [letInAll_of_none (letIn?_eq_none.mpr (.inl full)), callers, alone]
      rfl
    · cases more with
      | nil =>
        have goes : p.letIn? =
            Option.some (Option.some caller, { p with queue := p.queue ++ [item], senders := [] }) := by
          rw [letIn?, if_neg full, alone]
        refine .inl ⟨Nat.lt_of_not_le full, ?_⟩
        rw [letInAll, goes]
        simp only
        rw [letInAll_of_none (letIn?_eq_none.mpr (.inr rfl))]
      | cons next more =>
        have goes : p.letIn? = Option.some (none,
            { p with queue := p.queue ++ [item], senders := [⟨caller, next :: more⟩] }) := by
          rw [letIn?, if_neg full, alone]
          rfl
        rw [letInAll, goes]
        rcases ih (p := { p with queue := p.queue ++ [item], senders := [⟨caller, next :: more⟩] })
          (List.cons_ne_nil next more) (by simpa using enough) rfl with ⟨fits, all⟩ | ⟨lacking, left⟩
        · refine .inl ⟨?_, ?_⟩
          · simp only [List.length_append, List.length_cons, List.length_nil] at fits ⊢
            omega
          · simp only [all, List.append_assoc, List.singleton_append]
        · refine .inr ⟨?_, left⟩
          simp only [List.length_append, List.length_cons, List.length_nil] at lacking ⊢
          omega

omit [BEq κ] [LawfulBEq κ] in
/-- Where nobody is in line and there is room, a caller puts all its items in. -/
theorem send_of_room (line : p.senders = []) (caller : κ) {items : List (PoolItem J)}
    (room : p.queue.length + items.length ≤ p.capacity) :
    (p.send caller items).2 = { p with queue := p.queue ++ items } := by
  cases items with
  | nil =>
    show p = _
    rw [List.append_nil]
  | cons item items =>
    have alone : (p.lineUp caller (item :: items)).senders = [⟨caller, item :: items⟩] := by
      show p.senders ++ _ = _
      rw [line, List.nil_append]
    have enough : (item :: items).length ≤ (p.lineUp caller (item :: items)).backlog := by
      simp [backlog_eq, alone]
    rcases letInAll_alone (List.cons_ne_nil item items) enough alone with ⟨_, all⟩ | ⟨lacking, _⟩
    · rw [send_cons, all]
      simp only [lineUp, List.isEmpty_cons, Bool.false_eq_true, if_false, line]
    · exact absurd lacking (Nat.not_lt.mpr room)

/-- A caller that does not wait gets its items in at once exactly where there is room for them. -/
theorem Tight.isSending_send (h : p.Tight) (idle : p.isSending caller = false)
    (items : List (PoolItem J)) :
    (p.send caller items).2.isSending caller = false ↔
      items = [] ∨ p.queue.length + items.length ≤ p.capacity := by
  cases items with
  | nil => exact iff_of_true idle (.inl rfl)
  | cons item items =>
    rw [or_iff_right (List.cons_ne_nil item items)]
    by_cases line : p.senders = []
    · constructor
      · intro through
        by_contra lacking
        have alone : (p.lineUp caller (item :: items)).senders = [⟨caller, item :: items⟩] := by
          show p.senders ++ _ = _
          rw [line, List.nil_append]
        have enough : (item :: items).length ≤ (p.lineUp caller (item :: items)).backlog := by
          simp [backlog_eq, alone]
        rcases letInAll_alone (List.cons_ne_nil item items) enough alone with ⟨fits, _⟩ | ⟨_, left⟩
        · exact lacking fits
        · have waits : (p.send caller (item :: items)).2.isSending caller = true := by
            rw [isSending_iff, send_cons, left]
            exact List.mem_singleton_self caller
          rw [through] at waits
          cases waits
      · intro room
        rw [send_of_room line caller room, ← Bool.not_eq_true, isSending_iff, callers, line]
        exact List.not_mem_nil
    · have full := h.full line
      rw [h.send_of_line line]
      refine iff_of_false ?_ ?_
      · rw [Bool.not_eq_false, isSending_lineUp]
        exact .inr rfl
      · rw [List.length_cons]
        omega

/-- A caller that does not wait sends so many items, or has workers given out. -/
def Gets (p : Pool κ J) (caller : κ) (count : Nat) (q : Pool κ J) : Prop :=
  ∃ (p' : Pool κ J) (items : List (PoolItem J)), p'.capacity = p.capacity ∧ p'.queue = p.queue ∧
    p'.senders = p.senders ∧ (count ≠ 0 → p'.staff = p.staff) ∧ items.length = count ∧
    q = (p'.send caller items).2

omit [BEq κ] [LawfulBEq κ] in
theorem gets_send (p : Pool κ J) (caller : κ) (items : List (PoolItem J)) :
    p.Gets caller items.length (p.send caller items).2 := ⟨p, items, rfl, rfl, rfl, fun _ => rfl, rfl, rfl⟩

omit [BEq κ] [LawfulBEq κ] in
theorem gets_setWorkers (p : Pool κ J) (caller : κ) (count : UInt16) :
    p.Gets caller (p.setWorkers count).2.1 ((p.setWorkers count).2.2.send caller
      (List.replicate (p.setWorkers count).2.1 .exit)).2 := by
  rcases p.setWorkers_cases count with ⟨_, same⟩ | ⟨_, spawned, some, same⟩
  · rw [same]
    exact p.gets_send caller []
  · rw [same]
    let given : Pool κ J := { p with
      target := count
      issued := p.issued + spawned.length
      unstarted := p.unstarted ++ spawned }
    refine ⟨given, _, rfl, rfl, rfl, fun exits => ?_, List.length_replicate, rfl⟩
    -- a call that wants fewer workers gives none out
    have exits : p.workers.toNat - count.toNat ≠ 0 := exits
    have none : spawned = [] := by
      refine List.eq_nil_of_length_eq_zero (some.trans ?_)
      omega
    simp only [staff, given, none, List.append_nil]

omit [BEq κ] [LawfulBEq κ] in
theorem gets_shutdown (p : Pool κ J) (caller : κ) :
    p.Gets caller p.shutdown.1
      (p.shutdown.2.send caller (List.replicate p.shutdown.1 .exit)).2 :=
  ⟨p.shutdown.2, List.replicate p.shutdown.1 .exit, rfl, rfl, rfl, fun _ => rfl, List.length_replicate, rfl⟩

namespace Gets

variable {count : Nat} {q : Pool κ J}

omit [BEq κ] [LawfulBEq κ] in
theorem tight (gets : p.Gets caller count q) (h : p.Tight) : q.Tight := by
  obtain ⟨p', items, capacity, queue, senders, _, _, rfl⟩ := gets
  exact (h.congr capacity queue senders).send caller items

omit [BEq κ] [LawfulBEq κ] in
theorem capacity (gets : p.Gets caller count q) : q.capacity = p.capacity := by
  obtain ⟨p', items, capacity, _, _, _, _, rfl⟩ := gets
  rw [capacity_send, capacity]

omit [BEq κ] [LawfulBEq κ] in
/-- Nobody is hired for items. -/
theorem staff (gets : p.Gets caller count q) (some : count ≠ 0) : q.staff = p.staff := by
  obtain ⟨p', items, _, _, _, staff, _, rfl⟩ := gets
  rw [staff_send, staff some]

/-- The caller is through exactly where there was room. -/
theorem isSending (gets : p.Gets caller count q) (h : p.Tight) (idle : p.isSending caller = false) :
    q.isSending caller = false ↔ count = 0 ∨ p.queue.length + count ≤ p.capacity := by
  obtain ⟨p', items, capacity, queue, senders, _, length, rfl⟩ := gets
  have idle' : p'.isSending caller = false := by
    rw [Pool.isSending, senders]
    exact idle
  rw [(h.congr capacity queue senders).isSending_send idle', capacity, queue, ← length,
    List.length_eq_zero_iff]

end Gets

/-! ## Workers -/

/-- What a worker does to its pool: it may make room and let the line in, and makes nobody wait.
Where there are no workers, nothing happens. -/
structure Eases (p q : Pool κ J) : Prop where
  capacity : q.capacity = p.capacity
  tight : p.Tight → q.Tight
  idle : ∀ other, p.isSending other = false → q.isSending other = false
  still : p.staff = [] → q = p

omit [LawfulBEq κ] in
theorem Eases.refl (p : Pool κ J) : p.Eases p := ⟨rfl, id, fun _ => id, fun _ => rfl⟩

omit [LawfulBEq κ] in
theorem Eases.trans {q r : Pool κ J} (first : p.Eases q) (second : q.Eases r) : p.Eases r where
  capacity := second.capacity.trans first.capacity
  tight h := second.tight (first.tight h)
  idle other idle := second.idle other (first.idle other idle)
  still unmanned := by
    have same := first.still unmanned
    rw [second.still (same ▸ unmanned), same]

omit [LawfulBEq κ] in
/-- A worker changes its own standing only. -/
theorem eases_of_mem {worker : Nat} (there : worker ∈ p.staff) (capacity : p'.capacity = p.capacity)
    (queue : p'.queue = p.queue) (senders : p'.senders = p.senders) : p.Eases p' where
  capacity := capacity
  tight h := h.congr capacity queue senders
  idle other idle := by
    rw [isSending, senders]
    exact idle
  still unmanned := absurd unmanned (List.ne_nil_of_mem there)

omit [LawfulBEq κ] in
theorem eases_start (p : Pool κ J) (worker : Nat) : p.Eases (p.start worker) := by
  rw [start]
  split
  case isTrue unstarted =>
    have there : worker ∈ p.staff := List.mem_append_left _ (List.contains_iff_mem.mp unstarted)
    exact eases_of_mem there rfl rfl rfl
  case isFalse => exact .refl p

omit [LawfulBEq κ] in
theorem eases_finish (p : Pool κ J) (worker : Nat) : p.Eases (p.finish worker) := by
  rw [finish]
  split
  case isTrue busy =>
    obtain ⟨b, busy, _⟩ := List.any_eq_true.mp busy
    have there : b.1 ∈ p.staff :=
      List.mem_append_right _ (List.mem_append_right _ (List.mem_map_of_mem busy))
    exact eases_of_mem there rfl rfl rfl
  case isFalse => exact .refl p

omit [LawfulBEq κ] in
theorem eases_lose (p : Pool κ J) (worker : Nat) : p.Eases (p.lose worker) where
  capacity := rfl
  tight h := h.congr rfl rfl rfl
  idle _ idle := idle
  still unmanned := by
    have busy : p.busy = [] :=
      List.map_eq_nil_iff.mp (List.append_eq_nil_iff.mp (List.append_eq_nil_iff.mp unmanned).2).2
    have same : p.busy.filter (fun b => b.1 ≠ worker) = p.busy := by rw [busy]; rfl
    exact congrArg (fun busy => { p with busy := busy }) same

/-- A worker that takes an item lets the line in. -/
theorem eases_pick? {worker : Nat} {item : PoolItem J} {done : List κ}
    (picks : p.pick? worker = some (item, done, p')) : p.Eases p' := by
  rw [Pool.pick?] at picks
  have after {q : Pool κ J} {idle : List Nat} (turn : p.idle = worker :: idle)
      (capacity : q.capacity = p.capacity) (senders : q.senders = p.senders) :
      p.Eases (q.letInAll q.backlog).2 := by
    have there : worker ∈ p.staff :=
      List.mem_append_right _ (List.mem_append_left _ (turn ▸ List.mem_cons_self))
    refine ⟨(letInAll_frame _ _).1.trans capacity, fun h => tight_letInAll ?_ (Nat.le_refl _), ?_,
      fun unmanned => absurd unmanned (List.ne_nil_of_mem there)⟩
    · rw [Filled, senders]
      exact h.filled
    · intro other idle
      rw [← Bool.not_eq_true, isSending_iff] at idle ⊢
      intro waits
      have before := callers_letInAll _ _ waits
      rw [callers, senders] at before
      exact idle before
  cases takes : p.take? worker with
  | none =>
    rw [takes] at picks
    cases picks
  | some taken =>
    obtain ⟨first, q⟩ := taken
    rw [takes] at picks
    cases first with
    | job j =>
      cases picks
      obtain ⟨_, _, turn, _, rfl⟩ := take?_job takes
      exact after turn rfl rfl
    | exit =>
      cases picks
      obtain ⟨_, _, turn, _, rfl⟩ := take?_exit takes
      exact after turn rfl rfl

end Waiting

end Pool

end ChainIndex
