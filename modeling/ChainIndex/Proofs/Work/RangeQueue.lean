import ChainIndex.Proofs.Work.Keyed
import ChainIndex.Work.RangeQueue

/-!
# The state of a range queue

`RangeQueue.Sound` holds in every state that a queue can come to.  The pending identities are those
of the requests inside it, each once, at most one drainer is alive, and one is alive exactly where
something is pending.  Each function preserves it.

`itemsLeft` counts the items of a pending request that are not done.  A function changes it for one
identity only.
-/

namespace ChainIndex

theorem Barrier.pending_done (b : Barrier) : b.done.pending = b.pending - 1 := by
  have told (b : Barrier) : b.tell.pending = b.pending := by
    unfold Barrier.tell
    split
    · rfl
    · rfl
  rw [Barrier.done, told, Barrier.finish]
  split <;> simp_all

namespace RangeQueue

variable {ρ : Type} {q q' : RangeQueue ρ} {r : RangeRequest ρ} {d : Nat}

/-- The accepted requests that are not completed. -/
def inside (q : RangeQueue ρ) : List (RangeRequest ρ) :=
  q.sending ++ q.channel ++ q.draining.map (·.2)

structure Sound (q : RangeQueue ρ) : Prop where
  keys : (q.pending.map (·.1)).Perm (q.inside.map (·.id))
  distinct : (q.pending.map (·.1)).Nodup
  drainers : q.drainers = [] ∧ q.pending = [] ∨ ∃ d, q.drainers = [d] ∧ q.pending ≠ []
  draining : q.draining = [] ∨ ∃ d r, q.drainers = [d] ∧ q.draining = [(d, r)]

theorem Sound.empty : ({} : RangeQueue ρ).Sound :=
  ⟨.nil, .nil, .inl ⟨rfl, rfl⟩, .inl rfl⟩

theorem Sound.ids (h : q.Sound) : (q.inside.map (·.id)).Nodup := h.keys.nodup_iff.mp h.distinct

/-! ## Accepting -/

theorem accept?_some {started : Option Nat} (h : q.accept? r = some (started, q')) :
    q.barrier? r.id = none ∧ q' = { q with
      pending := q.pending ++ [(r.id, Barrier.ofCount r.numbers.length)]
      sending := q.sending ++ [r]
      drainers := if q.drainers.isEmpty then [q.issued + 1] else q.drainers
      issued := if q.drainers.isEmpty then q.issued + 1 else q.issued } := by
  rw [accept?] at h
  split at h
  case h_1 => cases h
  case h_2 free =>
    refine ⟨free, ?_⟩
    by_cases none_alive : q.drainers.isEmpty
    · simp only [none_alive, if_true] at h ⊢
      cases h
      rfl
    · simp only [none_alive] at h ⊢
      cases h
      rfl

/-- The identity of a request that is accepted is that of no request inside. -/
theorem Sound.fresh {started : Option Nat} (h : q.Sound) (accepted : q.accept? r = some (started, q')) :
    ∀ s ∈ q.inside, s.id ≠ r.id := by
  intro s inside same
  have free := (SlotCache.find?_eq_none _ _).mp (accept?_some accepted).1
  exact free (h.keys.mem_iff.mpr (List.mem_map.mpr ⟨s, inside, same⟩))

theorem Sound.accept {started : Option Nat} (h : q.Sound) (accepted : q.accept? r = some (started, q')) :
    q'.Sound := by
  obtain ⟨free, rfl⟩ := accept?_some accepted
  have fresh : r.id ∉ q.pending.map (·.1) := (SlotCache.find?_eq_none _ _).mp free
  refine ⟨?_, ?_, ?_, ?_⟩
  · have moved : (q.sending ++ [r] ++ q.channel ++ q.draining.map (·.2)).Perm (r :: q.inside) := by
      simp only [inside, List.append_assoc, List.singleton_append]
      exact List.perm_middle
    have added : (q.pending.map (·.1) ++ [r.id]).Perm (r.id :: q.inside.map (·.id)) :=
      (List.perm_append_singleton r.id _).trans (h.keys.cons r.id)
    rw [List.map_append]
    exact added.trans (moved.map RangeRequest.id).symm
  · rw [List.map_append]
    exact h.distinct.append (List.nodup_singleton _) (by simpa using fresh)
  · right
    rcases h.drainers with ⟨none_alive, _⟩ | ⟨d, alive, _⟩
    · exact ⟨q.issued + 1, by simp [none_alive], by simp⟩
    · exact ⟨d, by simp [alive], by simp⟩
  · rcases h.draining with none_on | ⟨d, r', alive, on⟩
    · exact .inl none_on
    · exact .inr ⟨d, r', by simp [alive], on⟩

/-! ## Sending and receiving -/

theorem Sound.sending (h : q.Sound) : (q.sending.map (·.id)).Nodup := by
  have ids := h.ids
  rw [inside, List.append_assoc, List.map_append] at ids
  exact ids.of_append_left

theorem send_of_mem (h : q.Sound) (there : r ∈ q.sending) :
    q.send r.id =
      { q with sending := q.sending.filter fun s => s.id ≠ r.id, channel := q.channel ++ [r] } := by
  have found : q.sending.find? (fun s => s.id == r.id) = some r := by
    cases hfind : q.sending.find? fun s => s.id == r.id with
    | none => simpa using List.find?_eq_none.mp hfind r there
    | some s =>
      have same : s.id = r.id := by simpa using List.find?_some hfind
      rw [List.inj_on_of_nodup_map h.sending (List.mem_of_find?_eq_some hfind) there same]
  rw [send, found]
  simp only [bne, decide_not, beq_eq_decide]

/-- A request that is sent still waits for the drainer. -/
theorem waiting_send (h : q.Sound) (there : r ∈ q.sending) :
    ((q.sending.filter fun s => s.id ≠ r.id) ++ (q.channel ++ [r])).Perm (q.sending ++ q.channel) := by
  have moved := (perm_cons_filter (·.id) there h.sending).append_right q.channel
  refine List.Perm.trans ?_ moved.symm
  rw [← List.append_assoc]
  exact List.perm_append_singleton r _

theorem Sound.send (h : q.Sound) (there : r ∈ q.sending) : (q.send r.id).Sound := by
  have moved := ((waiting_send h there).append_right (q.draining.map (·.2))).map RangeRequest.id
  rw [send_of_mem h there]
  exact ⟨h.keys.trans moved.symm, h.distinct, h.drainers, h.draining⟩

theorem receive?_some (h : q.Sound) (received : q.receive? d = some (r, q')) :
    q.drainers = [d] ∧ q.draining = [] ∧ ∃ rest, q.channel = r :: rest ∧
      q' = { q with channel := rest, draining := [(d, r)] } := by
  rw [receive?] at received
  split at received
  case isFalse => cases received
  case isTrue free =>
    simp only [Bool.and_eq_true, List.contains_iff_mem, Bool.not_eq_true', List.any_eq_false] at free
    obtain ⟨member, free⟩ := free
    have alive : q.drainers = [d] := by
      rcases h.drainers with ⟨none_alive, _⟩ | ⟨d', alive, _⟩
      · rw [none_alive] at member
        cases member
      · rw [alive, List.mem_singleton] at member
        rw [alive, member]
    have none_on : q.draining = [] := by
      rcases h.draining with none_on | ⟨d', r', alive', on⟩
      · exact none_on
      · rw [alive, List.singleton_inj] at alive'
        exact absurd (free (d', r') (by simp [on])) (by simp [alive'])
    split at received
    case h_1 => cases received
    case h_2 r rest line =>
      cases received
      exact ⟨alive, none_on, rest, line, by rw [none_on, List.nil_append]⟩

/-- A drainer that is on no request takes the next one in the channel. -/
theorem receive?_of_line {rest : List (RangeRequest ρ)} (h : q.Sound) (off : q.draining = [])
    (line : q.channel = r :: rest) : ∃ d q', q.receive? d = some (r, q') := by
  have pending : q.pending ≠ [] := by
    intro none_pending
    have inside := h.keys.length_eq
    simp [RangeQueue.inside, line, none_pending] at inside
  rcases h.drainers with ⟨_, none_pending⟩ | ⟨d, alive, _⟩
  · exact absurd none_pending pending
  · refine ⟨d, { q with channel := rest, draining := [(d, r)] }, ?_⟩
    simp [receive?, alive, off, line]

theorem Sound.receive (h : q.Sound) (received : q.receive? d = some (r, q')) : q'.Sound := by
  obtain ⟨alive, none_on, rest, line, rfl⟩ := receive?_some h received
  refine ⟨h.keys.trans (List.Perm.map RangeRequest.id ?_), h.distinct, h.drainers, .inr ⟨d, r, alive, rfl⟩⟩
  simp only [inside, none_on, line, List.map_nil, List.append_nil, List.map_cons, List.append_assoc]
  exact ((List.perm_append_singleton r rest).symm).append_left _

/-! ## Items -/

/-- Only the barrier of one identity changed. -/
structure Touched (id : String) (q q' : RangeQueue ρ) : Prop where
  rest : q' = { q with pending := q'.pending }
  keys : q'.pending.map (·.1) = q.pending.map (·.1)
  others : ∀ k, k ≠ id → q'.barrier? k = q.barrier? k

namespace Touched

variable {id : String}

theorem refl (q : RangeQueue ρ) : Touched id q q := ⟨rfl, rfl, fun _ _ => rfl⟩

theorem trans {q'' : RangeQueue ρ} (first : Touched id q q') (second : Touched id q' q'') :
    Touched id q q'' where
  rest := by
    rw [second.rest, first.rest]
  keys := second.keys.trans first.keys
  others k other := (second.others k other).trans (first.others k other)

theorem sound (touched : Touched id q q') (h : q.Sound) : q'.Sound := by
  have empty : q'.pending = [] ↔ q.pending = [] := by
    rw [← List.map_eq_nil_iff (f := (·.1)), touched.keys, List.map_eq_nil_iff]
  have inside : q'.inside = q.inside := by rw [touched.rest, RangeQueue.inside, RangeQueue.inside]
  have drainers : q'.drainers = q.drainers := by rw [touched.rest]
  have draining : q'.draining = q.draining := by rw [touched.rest]
  refine ⟨?_, ?_, ?_, ?_⟩
  · rw [touched.keys, inside]
    exact h.keys
  · rw [touched.keys]
    exact h.distinct
  · simpa only [drainers, ne_eq, empty] using h.drainers
  · simpa only [drainers, draining] using h.draining

end Touched

theorem barrier?_onBarrier (q : RangeQueue ρ) (id k : String) (f : Barrier → Barrier) :
    (q.onBarrier id f).barrier? k = if k = id then (q.barrier? k).map f else q.barrier? k :=
  SlotCache.find?_change q.pending id k f

theorem touched_onBarrier (q : RangeQueue ρ) (id : String) (f : Barrier → Barrier) :
    Touched id q (q.onBarrier id f) where
  rest := rfl
  keys := by
    rw [onBarrier, List.map_map]
    refine List.map_congr_left ?_
    intro e _
    by_cases changed : e.1 = id
    · simp [changed]
    · simp [changed]
  others k other := by rw [barrier?_onBarrier, if_neg other]

theorem touched_foldl_onBarrier {β : Type} (id : String) (f : Barrier → Barrier) (items : List β) :
    ∀ q : RangeQueue ρ, Touched id q (items.foldl (fun q _ => q.onBarrier id f) q) := by
  induction items with
  | nil => exact Touched.refl
  | cons _ rest ih => exact fun q => (touched_onBarrier q id f).trans (ih _)

theorem itemsLeft_done (q : RangeQueue ρ) (id k : String) :
    (q.onBarrier id Barrier.done).itemsLeft k = q.itemsLeft k - if k = id then 1 else 0 := by
  rw [itemsLeft, itemsLeft, barrier?_onBarrier]
  by_cases same : k = id
  · cases q.barrier? k with
    | none => simp [same]
    | some b => simp [same, Barrier.pending_done]
  · simp [same]

theorem itemsLeft_accept {started : Option Nat} (accepted : q.accept? r = some (started, q'))
    (k : String) : q'.itemsLeft k = if k = r.id then r.numbers.length else q.itemsLeft k := by
  obtain ⟨free, rfl⟩ := accept?_some accepted
  rw [itemsLeft, itemsLeft, barrier?, barrier?]
  have found := SlotCache.find?_concat q.pending r.id k (Barrier.ofCount r.numbers.length) free
  rw [SlotCache.find?, SlotCache.find?] at found
  rw [found]
  by_cases same : k = r.id
  · simp [same, Barrier.ofCount]
  · simp [same]

/-! ## Completing -/

theorem complete_of_on (on : q.draining = [(d, r)]) :
    q.complete d = { q with
      pending := SlotCache.erase q.pending r.id
      draining := []
      drainers :=
        if (SlotCache.erase q.pending r.id).isEmpty then q.drainers.filter (· ≠ d) else q.drainers } := by
  have current : q.current? d = some r := by simp [current?, on]
  have off : q.draining.filter (fun e => e.1 ≠ d) = [] := by simp [on]
  rw [complete, current]
  simp only [off]
  by_cases last : (SlotCache.erase q.pending r.id).isEmpty
  · rw [if_pos last]
    exact if_pos last
  · rw [if_neg last]
    exact if_neg last

theorem itemsLeft_complete (on : q.draining = [(d, r)]) (k : String) :
    (q.complete d).itemsLeft k = if k = r.id then 0 else q.itemsLeft k := by
  rw [itemsLeft, itemsLeft, complete_of_on on, barrier?, barrier?]
  have found := SlotCache.find?_erase q.pending r.id k
  rw [SlotCache.find?, SlotCache.find?] at found
  rw [found]
  by_cases same : k = r.id
  · simp [same]
  · simp [same]

/-- The identity of a request that a drainer is on is that of no request that waits. -/
theorem Sound.others (h : q.Sound) (on : q.draining = [(d, r)]) :
    ∀ s ∈ q.sending ++ q.channel, s.id ≠ r.id := by
  have ids := h.ids
  rw [inside, on, List.map_append] at ids
  intro s waits same
  exact List.disjoint_of_nodup_append ids (List.mem_map_of_mem waits) (by simp [same])

theorem Sound.complete (h : q.Sound) (on : q.draining = [(d, r)]) : (q.complete d).Sound := by
  have alive : q.drainers = [d] := by
    rcases h.draining with none_on | ⟨d', r', alive, on'⟩
    · rw [none_on] at on
      cases on
    · rw [on] at on'
      cases on'
      exact alive
  have others : ∀ k ∈ (q.sending ++ q.channel).map (·.id), k ≠ r.id := by
    intro k hk
    obtain ⟨s, waits, rfl⟩ := List.mem_map.mp hk
    exact h.others on s waits
  have erased : (SlotCache.erase q.pending r.id).map (·.1) =
      (q.pending.map (·.1)).filter (· ≠ r.id) := by
    simp only [SlotCache.erase, List.filter_map, bne, decide_not, beq_eq_decide]
    rfl
  rw [complete_of_on on]
  refine ⟨?_, ?_, ?_, .inl rfl⟩
  · have kept := h.keys.filter (· ≠ r.id)
    rw [← erased, inside, on, List.map_append, List.filter_append,
      List.filter_eq_self.mpr (by simpa using others)] at kept
    simpa [inside] using kept
  · rw [erased]
    exact h.distinct.filter _
  · by_cases last : SlotCache.erase q.pending r.id = []
    · exact .inl ⟨by simp [last, alive], last⟩
    · exact .inr ⟨d, by simp [last, alive], last⟩

/-! ## Requests that wait -/

/-- No item is done of a request that waits for the drainer. -/
def Full (q : RangeQueue ρ) : Prop := ∀ r ∈ q.sending ++ q.channel, q.itemsLeft r.id = r.numbers.length

namespace Full

theorem accept {started : Option Nat} (full : q.Full) (h : q.Sound)
    (accepted : q.accept? r = some (started, q')) : q'.Full := by
  intro s waits
  rw [itemsLeft_accept accepted]
  obtain ⟨_, rfl⟩ := accept?_some accepted
  have known : s = r ∨ s ∈ q.sending ++ q.channel := by
    simp only [List.mem_append, List.mem_singleton] at waits ⊢
    tauto
  rcases known with rfl | known
  · exact if_pos rfl
  · rw [if_neg (h.fresh accepted s (List.mem_append_left _ known))]
    exact full s known

theorem send (full : q.Full) (h : q.Sound) (there : r ∈ q.sending) : (q.send r.id).Full := by
  rw [send_of_mem h there]
  intro s waits
  exact full s ((waiting_send h there).mem_iff.mp waits)

theorem receive (full : q.Full) (h : q.Sound) (received : q.receive? d = some (r, q')) : q'.Full := by
  obtain ⟨_, _, rest, line, rfl⟩ := receive?_some h received
  intro s waits
  refine full s ?_
  rw [line]
  rcases List.mem_append.mp waits with sends | queued
  · exact List.mem_append_left _ sends
  · exact List.mem_append_right _ (List.mem_cons_of_mem _ queued)

theorem touched (full : q.Full) (h : q.Sound) (on : q.draining = [(d, r)])
    (touched : Touched r.id q q') : q'.Full := by
  intro s waits
  have known : s ∈ q.sending ++ q.channel := by
    rw [touched.rest] at waits
    exact waits
  rw [itemsLeft, touched.others s.id (h.others on s known)]
  exact full s known

theorem complete (full : q.Full) (h : q.Sound) (on : q.draining = [(d, r)]) : (q.complete d).Full := by
  intro s waits
  have known : s ∈ q.sending ++ q.channel := by
    rw [complete_of_on on] at waits
    exact waits
  rw [itemsLeft_complete on, if_neg (h.others on s known)]
  exact full s known

end Full

end RangeQueue

end ChainIndex
