import ChainIndex.Proofs.Work.RangeQueue

/-!
# Nothing is lost in a range queue

Callers and the drainer share a queue, and their steps come in any order.  A caller enters its
request into the map of the pending and starts a drainer where none is alive, all under one lock,
and sends the request later.  The drainer takes the next request, looks up its barrier and begins,
and when it is done it takes the request off the map and may end, again under the lock.

A drainer that has ended touches the queue no more, so the next one may be started at once.  It is
alive from when it is started until it ends.

A state also keeps what happened, which no step reads: who was accepted, who was rejected, who was
sent, and what the drainer began with.
-/

namespace ChainIndex

/-- What a drainer begins with. -/
structure Handover (ρ : Type) where
  drainer : Nat
  request : RangeRequest ρ
  barrier : Option Barrier

/-- A queue between two steps, and what happened to it. -/
structure QueueState (ρ : Type) where
  queue : RangeQueue ρ := {}
  /-- The drainers that have begun with the request that they are on. -/
  begun : List Nat := []
  /-- The requests that were accepted, in order. -/
  accepted : List (RangeRequest ρ) := []
  /-- The requests that were rejected, in order. -/
  rejected : List (RangeRequest ρ) := []
  /-- The requests that were sent, in order. -/
  sent : List (RangeRequest ρ) := []
  /-- What drainers began with, in order. -/
  handed : List (Handover ρ) := []

variable {ρ : Type} {s s' : QueueState ρ} {d : Nat} {r : RangeRequest ρ}

namespace QueueState

/-- A request comes, and is accepted or rejected. -/
def enqueue (s : QueueState ρ) (r : RangeRequest ρ) : QueueState ρ :=
  match s.queue.accept? r with
  | some (_, queue) => { s with queue := queue, accepted := s.accepted ++ [r] }
  | none => { s with rejected := s.rejected ++ [r] }

/-- The identities of the pending requests. -/
def pendingIds (s : QueueState ρ) : List String := s.queue.pending.map (·.1)

/-- The requests that a drainer has taken and not begun. -/
def unbegun (s : QueueState ρ) : List (RangeRequest ρ) :=
  (s.queue.draining.filter fun e => e.1 ∉ s.begun).map (·.2)

/-- The steps from here until all that was accepted is completed. -/
def stepsLeft (s : QueueState ρ) : Nat :=
  4 * s.queue.sending.length + 3 * s.queue.channel.length + s.queue.draining.length + s.unbegun.length

end QueueState

/-- A step that brings an accepted request on. -/
inductive QueueWork (s : QueueState ρ) : QueueState ρ → Prop
  /-- It is sent. -/
  | send {r : RangeRequest ρ} (accepted : r ∈ s.queue.sending) :
      QueueWork s { s with queue := s.queue.send r.id, sent := s.sent ++ [r] }
  /-- A drainer takes it. -/
  | receive {d : Nat} {r : RangeRequest ρ} {queue : RangeQueue ρ}
      (received : s.queue.receive? d = some (r, queue)) : QueueWork s { s with queue := queue }
  /-- The drainer looks up its barrier and begins. -/
  | begin {d : Nat} {r : RangeRequest ρ} (on : s.queue.current? d = some r) (fresh : d ∉ s.begun) :
      QueueWork s { s with
        begun := d :: s.begun
        handed := s.handed ++ [⟨d, r, s.queue.barrier? r.id⟩] }
  /-- The drainer is done with it. -/
  | complete {d : Nat} {r : RangeRequest ρ} (on : s.queue.current? d = some r) (begun : d ∈ s.begun) :
      QueueWork s { s with queue := s.queue.complete d, begun := s.begun.filter (· ≠ d) }

/-- One step of a caller, of a drainer, or of those who work for it. -/
inductive QueueStep (s : QueueState ρ) : QueueState ρ → Prop
  /-- A request comes. -/
  | enqueue (r : RangeRequest ρ) : QueueStep s (s.enqueue r)
  /-- A barrier changes, where its identity is pending. -/
  | barrier (id : String) (f : Barrier → Barrier) :
      QueueStep s { s with queue := s.queue.onBarrier id f }
  /-- A request is brought on. -/
  | work {s' : QueueState ρ} (work : QueueWork s s') : QueueStep s s'

/-- What a new queue becomes. -/
inductive QueueReachable : QueueState ρ → Prop
  | start : QueueReachable {}
  | step {s s' : QueueState ρ} (reached : QueueReachable s) (step : QueueStep s s') : QueueReachable s'

/-! ## The invariant -/

/-- What was sent was handed to drainers, in order, up to what is still in the line. -/
structure Lossless (s : QueueState ρ) : Prop where
  sound : s.queue.Sound
  begun : ∀ d ∈ s.begun, ∃ r, (d, r) ∈ s.queue.draining
  accepted : s.accepted.Perm (s.sent ++ s.queue.sending)
  line : s.sent = s.handed.map (·.request) ++ s.unbegun ++ s.queue.channel
  barriers : ∀ h ∈ s.handed, h.barrier.isSome

namespace Lossless

theorem start : Lossless ({} : QueueState ρ) where
  sound := .empty
  begun _ h := nomatch h
  accepted := .nil
  line := rfl
  barriers _ h := nomatch h

/-- A drainer that is on a request is the only one on any. -/
theorem on (h : Lossless s) (on : s.queue.current? d = some r) :
    s.queue.draining = [(d, r)] ∧ s.queue.drainers = [d] := by
  rw [RangeQueue.current?] at on
  rcases h.sound.draining with none_on | ⟨d', r', alive, only⟩
  · simp [none_on] at on
  · by_cases same : d' = d
    · simp only [only, List.find?_cons, same, decide_true, Option.map_some, Option.some.injEq] at on
      rw [only, alive, same, on]
      exact ⟨rfl, rfl⟩
    · simp [only, same] at on

theorem enqueue (h : Lossless s) (r : RangeRequest ρ) : Lossless (s.enqueue r) := by
  rw [QueueState.enqueue]
  cases accepted : s.queue.accept? r with
  | none => exact { h with }
  | some result =>
    obtain ⟨started, queue⟩ := result
    obtain ⟨_, rfl⟩ := RangeQueue.accept?_some accepted
    refine ⟨h.sound.accept accepted, h.begun, ?_, h.line, h.barriers⟩
    rw [← List.append_assoc]
    exact h.accepted.append_right [r]

theorem touched (h : Lossless s) {id : String} {queue : RangeQueue ρ}
    (touched : RangeQueue.Touched id s.queue queue) : Lossless { s with queue := queue } := by
  have sound := touched.sound h.sound
  rw [touched.rest] at sound ⊢
  exact ⟨sound, h.begun, h.accepted, h.line, h.barriers⟩

theorem send (h : Lossless s) (there : r ∈ s.queue.sending) :
    Lossless { s with queue := s.queue.send r.id, sent := s.sent ++ [r] } := by
  have sound := h.sound.send there
  rw [RangeQueue.send_of_mem h.sound there] at sound ⊢
  refine ⟨sound, h.begun, ?_, ?_, h.barriers⟩
  · have moved := perm_cons_filter (·.id) there h.sound.sending
    rw [List.append_assoc]
    exact h.accepted.trans (moved.append_left s.sent)
  · dsimp only
    rw [h.line, List.append_assoc]
    rfl

theorem receive {queue : RangeQueue ρ} (h : Lossless s)
    (received : s.queue.receive? d = some (r, queue)) : Lossless { s with queue := queue } := by
  have sound := h.sound.receive received
  obtain ⟨alive, off, rest, line, rfl⟩ := RangeQueue.receive?_some h.sound received
  have idle : s.begun = [] := by
    refine List.eq_nil_iff_forall_not_mem.mpr ?_
    intro d hd
    obtain ⟨r, on⟩ := h.begun d hd
    rw [off] at on
    cases on
  refine ⟨sound, ?_, h.accepted, ?_, h.barriers⟩
  · intro d hd
    rw [idle] at hd
    cases hd
  · have sent := h.line
    rw [QueueState.unbegun, off, line] at sent
    simpa [QueueState.unbegun, idle] using sent

theorem begin (h : Lossless s) (on : s.queue.current? d = some r) (fresh : d ∉ s.begun) :
    Lossless { s with
      begun := d :: s.begun
      handed := s.handed ++ [⟨d, r, s.queue.barrier? r.id⟩] } := by
  obtain ⟨only, _⟩ := h.on on
  refine ⟨h.sound, ?_, h.accepted, ?_, ?_⟩
  · intro d' hd
    rcases List.mem_cons.mp hd with rfl | hd
    · exact ⟨r, by simp [only]⟩
    · exact h.begun d' hd
  · have sent := h.line
    simp only [QueueState.unbegun, only] at sent ⊢
    simpa [fresh] using sent
  · intro x hx
    rcases List.mem_append.mp hx with hx | hx
    · exact h.barriers x hx
    · -- a request that a drainer is on is pending
      rw [List.mem_singleton.mp hx]
      have inside : r.id ∈ s.pendingIds := by
        refine h.sound.keys.mem_iff.mpr (List.mem_map_of_mem ?_)
        simp [RangeQueue.inside, only]
      cases found : s.queue.barrier? r.id with
      | some barrier => rfl
      | none => exact absurd inside ((SlotCache.find?_eq_none _ _).mp found)

theorem complete (h : Lossless s) (on : s.queue.current? d = some r) (begun : d ∈ s.begun) :
    Lossless { s with queue := s.queue.complete d, begun := s.begun.filter (· ≠ d) } := by
  obtain ⟨only, _⟩ := h.on on
  have sound := h.sound.complete only
  rw [RangeQueue.complete_of_on only] at sound ⊢
  refine ⟨sound, ?_, h.accepted, ?_, h.barriers⟩
  · intro d' hd
    obtain ⟨hd, other⟩ := List.mem_filter.mp hd
    obtain ⟨r', on'⟩ := h.begun d' hd
    rw [only] at on'
    cases List.mem_singleton.mp on'
    simp at other
  · have sent := h.line
    simp only [QueueState.unbegun, only] at sent ⊢
    simpa [begun] using sent

theorem work (h : Lossless s) (work : QueueWork s s') : Lossless s' := by
  cases work with
  | send accepted => exact h.send accepted
  | receive received => exact h.receive received
  | begin on fresh => exact h.begin on fresh
  | complete on begun => exact h.complete on begun

theorem step (h : Lossless s) (step : QueueStep s s') : Lossless s' := by
  cases step with
  | enqueue r => exact h.enqueue r
  | barrier id f => exact h.touched (RangeQueue.touched_onBarrier s.queue id f)
  | work work => exact h.work work

end Lossless

theorem QueueReachable.lossless (h : QueueReachable s) : Lossless s := by
  induction h with
  | start => exact .start
  | step _ step ih => exact ih.step step

/-! ## Bringing requests on -/

namespace Lossless

/-- Each step that brings a request on is one of those that were left. -/
theorem stepsLeft (h : Lossless s) (work : QueueWork s s') : s'.stepsLeft + 1 = s.stepsLeft := by
  cases work with
  | @send r accepted =>
    have fewer := (perm_cons_filter (·.id) accepted h.sound.sending).length_eq
    rw [RangeQueue.send_of_mem h.sound accepted]
    simp only [QueueState.stepsLeft, QueueState.unbegun, List.length_append, List.length_cons,
      List.length_nil] at fewer ⊢
    omega
  | @receive d r queue received =>
    have idle := (h.receive received).line
    obtain ⟨_, off, rest, line, rfl⟩ := RangeQueue.receive?_some h.sound received
    have sent := congrArg List.length (h.line.symm.trans idle)
    simp only [QueueState.unbegun, line, List.length_append, List.length_cons] at sent
    simp only [QueueState.stepsLeft, QueueState.unbegun, off, line, List.length_cons, List.length_nil]
      at sent ⊢
    omega
  | @begin d r on fresh =>
    obtain ⟨only, _⟩ := h.on on
    simp [QueueState.stepsLeft, QueueState.unbegun, only, fresh]
  | @complete d r on begun =>
    obtain ⟨only, _⟩ := h.on on
    rw [RangeQueue.complete_of_on only]
    simp [QueueState.stepsLeft, QueueState.unbegun, only, begun]

/-- Some request can be brought on, as long as one is pending. -/
theorem work_or_done (h : Lossless s) : (∃ s', QueueWork s s') ∨ s.queue.inside = [] := by
  cases sends : s.queue.sending with
  | cons r rest => exact .inl ⟨_, .send (sends ▸ List.mem_cons_self)⟩
  | nil =>
    rcases h.sound.draining with off | ⟨d, r, _, only⟩
    · cases line : s.queue.channel with
      | cons r rest =>
        obtain ⟨d, queue, received⟩ := RangeQueue.receive?_of_line h.sound off line
        exact .inl ⟨_, .receive received⟩
      | nil => exact .inr (by simp [RangeQueue.inside, sends, off, line])
    · have on : s.queue.current? d = some r := by simp [RangeQueue.current?, only]
      by_cases begun : d ∈ s.begun
      · exact .inl ⟨_, .complete on begun⟩
      · exact .inl ⟨_, .begin on begun⟩

/-- Where no request is inside, all that were accepted have been handed to drainers. -/
theorem handed_of_done (h : Lossless s) (done : s.queue.inside = []) :
    s.sent = s.handed.map (·.request) ∧ s.accepted.Perm (s.handed.map (·.request)) ∧
      s.pendingIds = [] := by
  simp only [RangeQueue.inside, List.append_eq_nil_iff, List.map_eq_nil_iff] at done
  obtain ⟨⟨sends, line⟩, off⟩ := done
  have all := h.line
  rw [QueueState.unbegun, off, line] at all
  have all : s.sent = s.handed.map (·.request) := by simpa using all
  have pending := h.sound.keys
  rw [RangeQueue.inside, sends, line, off] at pending
  refine ⟨all, ?_, pending.eq_nil⟩
  have accepted := h.accepted
  rwa [sends, List.append_nil, all] at accepted

end Lossless

/-- A request is rejected exactly where its identity is pending, and then the queue is left as it
is. -/
theorem QueueState.enqueue_eq (s : QueueState ρ) (r : RangeRequest ρ) :
    (r.id ∈ s.pendingIds → s.enqueue r = { s with rejected := s.rejected ++ [r] }) ∧
      (r.id ∉ s.pendingIds →
        (s.enqueue r).rejected = s.rejected ∧ (s.enqueue r).accepted = s.accepted ++ [r]) := by
  have found : s.queue.barrier? r.id = none ↔ r.id ∉ s.pendingIds := SlotCache.find?_eq_none _ _
  constructor
  · intro pending
    cases free : s.queue.barrier? r.id with
    | none => exact absurd pending (found.mp free)
    | some barrier => simp [enqueue, RangeQueue.accept?, free]
  · intro fresh
    by_cases none_alive : s.queue.drainers.isEmpty
    · simp [enqueue, RangeQueue.accept?, found.mpr fresh, none_alive]
    · simp [enqueue, RangeQueue.accept?, found.mpr fresh, none_alive]

/-- However the steps of callers and drainers come, at most one drainer is alive, and where none
is, nothing is pending or in the channel.  The pending identities are those of the requests that
are being sent, in the channel or on a drainer, each once.  What was sent is what drainers began
with, in order, and what is still in line.  Each step of those that bring a request on is one less
to do, one can be done while a request is pending, and in the end all that were accepted have been
handed over.  A request is rejected exactly where its identity is pending, and nothing changes for
the pending one. -/
theorem range_queue_loses_nothing (h : QueueReachable s) :
    s.queue.drainers.length ≤ 1 ∧
    (s.queue.drainers = [] → s.queue.pending = [] ∧ s.queue.channel = []) ∧
    s.pendingIds.Nodup ∧
    s.pendingIds.Perm
      ((s.queue.sending ++ s.queue.channel ++ s.queue.draining.map (·.2)).map (·.id)) ∧
    s.accepted.Perm (s.sent ++ s.queue.sending) ∧
    s.sent = s.handed.map (·.request) ++ s.unbegun ++ s.queue.channel ∧
    (∀ x ∈ s.handed, x.barrier.isSome) ∧
    (∀ s', QueueWork s s' → s'.stepsLeft + 1 = s.stepsLeft) ∧
    ((∃ s', QueueWork s s') ∨ s.sent = s.handed.map (·.request) ∧
      s.accepted.Perm (s.handed.map (·.request)) ∧ s.pendingIds = []) ∧
    ∀ r, (r.id ∈ s.pendingIds → s.enqueue r = { s with rejected := s.rejected ++ [r] }) ∧
      (r.id ∉ s.pendingIds →
        (s.enqueue r).rejected = s.rejected ∧ (s.enqueue r).accepted = s.accepted ++ [r]) := by
  have lossless := h.lossless
  have idle : s.queue.drainers = [] → s.queue.pending = [] := by
    intro none_alive
    rcases lossless.sound.drainers with ⟨_, none_pending⟩ | ⟨d, alive, _⟩
    · exact none_pending
    · rw [none_alive] at alive
      cases alive
  refine ⟨?_, ?_, lossless.sound.distinct, lossless.sound.keys, lossless.accepted, lossless.line,
    lossless.barriers, fun s' => lossless.stepsLeft, ?_, s.enqueue_eq⟩
  · rcases lossless.sound.drainers with ⟨none_alive, _⟩ | ⟨d, alive, _⟩
    · rw [none_alive]
      exact Nat.zero_le 1
    · rw [alive]
      exact Nat.le_refl 1
  · intro none_alive
    have keys := lossless.sound.keys
    rw [idle none_alive, RangeQueue.inside] at keys
    have empty := List.map_eq_nil_iff.mp keys.symm.eq_nil
    simp only [List.append_eq_nil_iff] at empty
    exact ⟨idle none_alive, empty.1.2⟩
  · rcases lossless.work_or_done with next | done
    · exact .inl next
    · exact .inr (lossless.handed_of_done done)

/-- Two requests are accepted, and the second one is sent first.  A drainer is on it when the first
identity comes again. -/
theorem range_queue_loses_nothing_of_two :
    ∃ (first second : RangeRequest Unit) (s : QueueState Unit), QueueReachable s ∧
      s.accepted = [first, second] ∧ s.sent = [second] ∧ s.handed.map (·.request) = [second] ∧
      s.queue.sending = [first] ∧ s.queue.drainers.length ≤ 1 ∧ (∃ s', QueueWork s s') ∧
      s.enqueue first = { s with rejected := [first] } := by
  let first : RangeRequest Unit := ⟨"a", [1, 2], none⟩
  let second : RangeRequest Unit := ⟨"b", [3], none⟩
  have both : QueueReachable ((({} : QueueState Unit).enqueue first).enqueue second) :=
    (QueueReachable.start.step (.enqueue first)).step (.enqueue second)
  have sent := both.step (.work (.send
    (show second ∈ [first, second] from List.mem_cons_of_mem _ List.mem_cons_self)))
  have received := sent.step (.work (.receive (d := 1) rfl))
  have begun := received.step (.work (.begin (d := 1) (r := second) rfl (by decide)))
  obtain ⟨one, _, _, _, _, _, _, _, next, again⟩ := range_queue_loses_nothing begun
  refine ⟨first, second, _, begun, rfl, rfl, rfl, rfl, one, ?_, (again first).1 (by decide)⟩
  rcases next with next | ⟨_, _, none_pending⟩
  · exact next
  · cases none_pending

end ChainIndex
