import ChainIndex.Proofs.Work.Filling

/-!
# What a drainer is at

At most one drainer is alive, and it is at one of four places: it has no request (`idle`), it has
received one (`received`), it waits for the barrier (`filling`), or it has answered and not gone on
(`replied`).  Only while it waits is there a slot that some worker has to fill or to count down.

`FanState.Sound` puts this beside what holds of the workers, the queue, and the arrays that were
answered.  Every step of a caller and of the fan-out preserves it.
-/

namespace ChainIndex

variable {κ ι α ρ : Type}

namespace FanState

/-! ## Invariants -/

structure Queued (s : FanState κ ι α ρ) : Prop where
  sound : s.fan.queue.Sound
  full : s.fan.queue.Full

inductive Drains (s : FanState κ ι α ρ) : Prop
  | idle (off : s.fan.queue.draining = []) (free : s.fan.handles = []) (silent : s.answered = [])
      (rest : s.uncounted (fun _ => 1) = 0)
  | received {d : Nat} {r : RangeRequest ρ} (on : s.fan.queue.draining = [(d, r)])
      (free : s.fan.handles = []) (silent : s.answered = [])
      (full : s.fan.queue.itemsLeft r.id = r.numbers.length) (rest : s.uncounted (fun _ => 1) = 0)
  | filling {d : Nat} {r : RangeRequest ρ} {h : SlotHandle} {slots : List (Option α)}
      (on : s.fan.queue.draining = [(d, r)]) (waits : s.fan.handles = [(d, h)])
      (silent : s.answered = []) (fills : s.Fills r h slots)
  | replied {d : Nat} {r : RangeRequest ρ} (on : s.fan.queue.draining = [(d, r)])
      (told : s.answered = [d]) (waited : ∀ e ∈ s.fan.handles, e.1 = d)
      (rest : s.uncounted (fun _ => 1) = 0)

structure Delivered (fetches : UInt64 → α → Prop) (s : FanState κ ι α ρ) : Prop where
  filled : ∀ e ∈ s.ready, ∃ results, s.Filled fetches e.1 e.2 results
  distinct : (s.ready.map fun e => e.2.generation).Nodup
  old : ∀ e ∈ s.ready, e.2.generation < s.fan.cache.nextGeneration
  written : ∀ w ∈ s.writes, w.task.handle.generation < s.fan.cache.nextGeneration
  fetched : ∀ w ∈ s.writes, fetches w.task.number w.result
  taken : ∀ e ∈ s.taken, ∃ r, (r, e.1) ∈ s.ready

/-- The accepted requests that have no answer. -/
def unanswered (s : FanState κ ι α ρ) : List (RangeRequest ρ) :=
  s.fan.queue.sending ++ s.fan.queue.channel ++
    (s.fan.queue.draining.filter fun e => e.1 ∉ s.answered).map (·.2)

/-- Each request is answered once or has no answer. -/
def Tracked (s : FanState κ ι α ρ) : Prop := s.asked.Perm (s.answers.map (·.1) ++ s.unanswered)

structure Sound (fetches : UInt64 → α → Prop) (s : FanState κ ι α ρ) : Prop where
  staffed : s.Staffed
  queued : s.Queued
  drains : s.Drains
  delivered : s.Delivered fetches
  tracked : s.Tracked

variable {s t : FanState κ ι α ρ} {fetches : UInt64 → α → Prop} {d : Nat} {r : RangeRequest ρ}
  {h : SlotHandle}

theorem Queued.congr (queued : s.Queued) (queue : t.fan.queue = s.fan.queue) :
    t.Queued where
  sound := queue ▸ queued.sound
  full := queue ▸ queued.full

theorem unanswered_of_off (off : s.fan.queue.draining = []) :
    s.unanswered = s.fan.queue.sending ++ s.fan.queue.channel := by
  simp [unanswered, off]

theorem unanswered_of_silent (on : s.fan.queue.draining = [(d, r)]) (silent : s.answered = []) :
    s.unanswered = s.fan.queue.sending ++ s.fan.queue.channel ++ [r] := by
  simp [unanswered, on, silent]

theorem unanswered_of_told (on : s.fan.queue.draining = [(d, r)]) (told : s.answered = [d]) :
    s.unanswered = s.fan.queue.sending ++ s.fan.queue.channel := by
  simp [unanswered, on, told]

/-- A drainer answers the request that it is on. -/
theorem Tracked.answer (tracked : s.Tracked) (on : s.fan.queue.draining = [(d, r)])
    (silent : s.answered = []) {a : RangeAnswer} (answers : t.answers = (r, a) :: s.answers)
    (told : t.answered = [d]) (asked : t.asked = s.asked)
    (draining : t.fan.queue.draining = s.fan.queue.draining)
    (sending : t.fan.queue.sending = s.fan.queue.sending)
    (channel : t.fan.queue.channel = s.fan.queue.channel) : t.Tracked := by
  rw [Tracked, unanswered_of_silent on silent, ← List.append_assoc] at tracked
  rw [Tracked, unanswered_of_told (draining.trans on) told, asked, answers, sending, channel]
  exact tracked.trans (List.perm_append_singleton r _)

/-! ## Places of the drainer -/

namespace Drains

theorem at_rest (drains : s.Drains) (off : s.fan.queue.draining = []) :
    s.fan.handles = [] ∧ s.answered = [] ∧ s.uncounted (fun _ => 1) = 0 := by
  cases drains with
  | idle _ free silent rest => exact ⟨free, silent, rest⟩
  | received on => simp [off] at on
  | filling on => simp [off] at on
  | replied on => simp [off] at on

theorem at_begin (drains : s.Drains) (on : (d, r) ∈ s.fan.queue.draining)
    (begins : ∀ h, (d, h) ∉ s.fan.handles) (silent : d ∉ s.answered) :
    s.fan.queue.draining = [(d, r)] ∧ s.fan.handles = [] ∧ s.answered = [] ∧
      s.fan.queue.itemsLeft r.id = r.numbers.length ∧ s.uncounted (fun _ => 1) = 0 := by
  cases drains with
  | idle off => simp [off] at on
  | received here free quiet full rest =>
    obtain ⟨rfl, rfl⟩ : d = _ ∧ r = _ := by simpa [here] using on
    exact ⟨here, free, quiet, full, rest⟩
  | @filling _ _ h _ here waits =>
    obtain ⟨rfl, rfl⟩ : d = _ ∧ r = _ := by simpa [here] using on
    exact absurd (by simp [waits]) (begins h)
  | replied here told =>
    obtain ⟨rfl, rfl⟩ : d = _ ∧ r = _ := by simpa [here] using on
    simp [told] at silent

theorem at_barrier (drains : s.Drains) (on : (d, r) ∈ s.fan.queue.draining)
    (waits : (d, h) ∈ s.fan.handles) (silent : d ∉ s.answered) :
    s.fan.queue.draining = [(d, r)] ∧ s.fan.handles = [(d, h)] ∧ s.answered = [] ∧
      ∃ slots, s.Fills r h slots := by
  cases drains with
  | idle off => simp [off] at on
  | received _ free => simp [free] at waits
  | filling here there quiet fills =>
    obtain ⟨rfl, rfl⟩ : d = _ ∧ r = _ := by simpa [here] using on
    obtain rfl : h = _ := by simpa [there] using waits
    exact ⟨here, there, quiet, _, fills⟩
  | replied here told =>
    obtain ⟨rfl, rfl⟩ : d = _ ∧ r = _ := by simpa [here] using on
    simp [told] at silent

theorem at_end (drains : s.Drains) (told : d ∈ s.answered) :
    ∃ r, s.fan.queue.draining = [(d, r)] ∧ s.answered = [d] ∧ (∀ e ∈ s.fan.handles, e.1 = d) ∧
      s.uncounted (fun _ => 1) = 0 := by
  cases drains with
  | idle _ _ silent => simp [silent] at told
  | received _ _ silent => simp [silent] at told
  | filling _ _ silent => simp [silent] at told
  | replied on only waited rest =>
    obtain rfl : d = _ := by simpa [only] using told
    exact ⟨_, on, only, waited, rest⟩

/-- A worker that is not done with a slot is on a slot of the array that the drainer waits for. -/
theorem at_work (drains : s.Drains) {w : Nat} {x : SlotTask}
    (busy : (w, .slot x.handle x.index x.number) ∈ s.fan.pool.busy) (stage : s.stage w ≠ .counted) :
    ∃ d r slots, s.fan.queue.draining = [(d, r)] ∧ s.fan.handles = [(d, x.handle)] ∧
      s.answered = [] ∧ s.Fills r x.handle slots := by
  have due : 1 ≤ s.uncounted fun _ => 1 := le_due _ (fun _ => 1) busy (by simpa using stage)
  cases drains with
  | idle _ _ _ rest => omega
  | received _ _ _ _ rest => omega
  | filling on waits silent fills =>
    obtain rfl := fills.handle_of_busy busy stage
    exact ⟨_, _, _, on, waits, silent, fills⟩
  | replied _ _ _ rest => omega

/-- The drainer stays at its place where nothing changes that it waits for. -/
theorem congr (drains : s.Drains)
    (unwritten : ∀ weigh, t.unwritten weigh = s.unwritten weigh)
    (uncounted : ∀ weigh, t.uncounted weigh = s.uncounted weigh)
    (items : ∀ d r, s.fan.queue.draining = [(d, r)] →
      t.fan.queue.itemsLeft r.id = s.fan.queue.itemsLeft r.id)
    (slots : ∀ h, (∀ e ∈ s.ready, e.2.generation ≠ h.generation) →
      t.fan.cache.slots? h = s.fan.cache.slots? h)
    (draining : t.fan.queue.draining = s.fan.queue.draining)
    (handles : t.fan.handles = s.fan.handles) (answered : t.answered = s.answered)
    (ready : t.ready = s.ready) (writes : t.writes = s.writes)
    (generation : t.fan.cache.nextGeneration = s.fan.cache.nextGeneration) : t.Drains := by
  cases drains with
  | idle off free silent rest =>
    exact .idle (draining.trans off) (handles.trans free) (answered.trans silent)
      ((uncounted _).trans rest)
  | received on free silent full rest =>
    exact .received (draining.trans on) (handles.trans free) (answered.trans silent)
      ((items _ _ on).trans full) ((uncounted _).trans rest)
  | @filling d r h held on waits silent fills =>
    have fills' : t.Fills r h held := {
      key := fills.key
      length := fills.length
      slots_length := fills.slots_length
      stored := (slots h fills.other).trans fills.stored
      old := generation ▸ fills.old
      other := ready ▸ fills.other
      written := by
        rw [writesTo, writes]
        exact fills.written
      unwritten := fun weigh => (unwritten weigh).trans (fills.unwritten weigh)
      uncounted := by rw [uncounted, items _ _ on, fills.uncounted]
      own := (uncounted _).trans fills.own }
    exact .filling (draining.trans on) (handles.trans waits) (answered.trans silent) fills'
  | replied on told waited rest =>
    exact .replied (draining.trans on) (answered.trans told) (by rw [handles]; exact waited)
      ((uncounted _).trans rest)

end Drains

/-! ## Arrays that were answered -/

namespace Delivered

/-- Nothing changes for the arrays that were answered where none is answered, written or taken. -/
theorem congr (delivered : s.Delivered fetches) (ready : t.ready = s.ready)
    (cache : t.fan.cache = s.fan.cache) (writes : t.writes = s.writes)
    (taken : t.taken = s.taken) : t.Delivered fetches where
  filled e he := by
    obtain ⟨results, filled⟩ := delivered.filled e (ready ▸ he)
    exact ⟨results, filled.congr (by rw [cache]) (by rw [writesTo, writesTo, writes])
      (by rw [takesOf, takesOf, taken])⟩
  distinct := by
    rw [ready]
    exact delivered.distinct
  old := by
    rw [ready, cache]
    exact delivered.old
  written := by
    rw [writes, cache]
    exact delivered.written
  fetched := by
    rw [writes]
    exact delivered.fetched
  taken := by
    rw [ready, taken]
    exact delivered.taken

/-- A handle that was told nobody was not taken. -/
theorem untaken (delivered : s.Delivered fetches) (other : ∀ e ∈ s.ready, e.2.generation ≠ h.generation) :
    s.takesOf h = [] := by
  rw [takesOf, List.map_eq_nil_iff, List.filter_eq_nil_iff]
  intro e he same
  obtain ⟨r, told⟩ := delivered.taken e he
  exact other _ told (by simpa using congrArg SlotHandle.generation (of_decide_eq_true same))

/-- A new array is none of those that were answered. -/
theorem allocate (delivered : s.Delivered fetches) {key : String} {length : Nat} {cache : SlotCache α}
    (allocated : s.fan.cache.allocate key length = .ok (h, cache)) :
    (s.withCache cache).Delivered fetches := by
  obtain ⟨_, next, _, older⟩ := SlotCache.allocate_ok allocated
  have later : s.fan.cache.nextGeneration < cache.nextGeneration := next ▸ Nat.lt_succ_self _
  refine ⟨?_, delivered.distinct, ?_, ?_, delivered.fetched, delivered.taken⟩
  · intro e he
    obtain ⟨results, filled⟩ := delivered.filled e he
    exact ⟨results, filled.congr (older e.2 (delivered.old e he)) rfl rfl⟩
  · exact fun e he => Nat.lt_trans (delivered.old e he) later
  · exact fun w hw => Nat.lt_trans (delivered.written w hw) later

/-- An array that is filled is answered. -/
theorem pass (delivered : s.Delivered fetches) {slots : List (Option α)} (fills : s.Fills r h slots)
    (done : s.fan.queue.itemsLeft r.id = 0) :
    ({ s.answer r (.ready h) with answered := d :: s.answered } : FanState κ ι α ρ).Delivered
      fetches := by
  obtain ⟨results, filled⟩ :=
    fills.filled delivered.fetched (delivered.untaken fills.other) done
  have new : h.generation ∉ s.ready.map fun e => e.2.generation := by
    intro told
    obtain ⟨e, he, same⟩ := List.mem_map.mp told
    exact fills.other e he same
  refine ⟨?_, List.nodup_cons.mpr ⟨new, delivered.distinct⟩, ?_, delivered.written,
    delivered.fetched, ?_⟩
  · intro e he
    rcases List.mem_cons.mp he with rfl | he
    · exact ⟨results, filled.congr rfl rfl rfl⟩
    · obtain ⟨results, filled⟩ := delivered.filled e he
      exact ⟨results, filled.congr rfl rfl rfl⟩
  · intro e he
    rcases List.mem_cons.mp he with rfl | he
    · exact fills.old
    · exact delivered.old e he
  · intro e he
    obtain ⟨r', told⟩ := delivered.taken e he
    exact ⟨r', List.mem_cons_of_mem _ told⟩

/-- A slot of an array that was not answered is written. -/
theorem write (delivered : s.Delivered fetches) {w : Nat} {x : SlotTask} {a : α} {kept : Bool}
    {cache : SlotCache α} (other : ∀ e ∈ s.ready, e.2.generation ≠ x.handle.generation)
    (old : x.handle.generation < s.fan.cache.nextGeneration) (result : fetches x.number a)
    (next : cache.nextGeneration = s.fan.cache.nextGeneration)
    (slots : ∀ k, ¬ SlotCache.SameArray x.handle k → cache.slots? k = s.fan.cache.slots? k) :
    ({ (s.withCache cache).reaches w .written with
        writes := ⟨x, a, kept⟩ :: s.writes } : FanState κ ι α ρ).Delivered fetches := by
  refine ⟨?_, delivered.distinct, ?_, ?_, ?_, delivered.taken⟩
  · intro e he
    obtain ⟨results, filled⟩ := delivered.filled e he
    refine ⟨results, filled.congr (slots e.2 fun same => other e he same.2) ?_ rfl⟩
    refine List.filter_cons_of_neg ?_
    have different : x.handle ≠ e.2 := fun same => other e he (by rw [same])
    simpa using different
  · intro e he
    exact next ▸ delivered.old e he
  · intro v hv
    rcases List.mem_cons.mp hv with rfl | hv
    · exact next ▸ old
    · exact next ▸ delivered.written v hv
  · intro v hv
    rcases List.mem_cons.mp hv with rfl | hv
    · exact result
    · exact delivered.fetched v hv

/-- An array that was answered is taken. -/
theorem take (delivered : s.Delivered fetches) {slots : List (Option α)} {cache : SlotCache α}
    (told : (r, h) ∈ s.ready) (takes : s.fan.cache.takeArray h = .ok (slots, cache)) :
    ({ s.withCache cache with taken := (h, slots) :: s.taken } : FanState κ ι α ρ).Delivered
      fetches := by
  obtain ⟨found, next, gone⟩ := SlotCache.takeArray_ok takes
  refine ⟨?_, delivered.distinct, ?_, ?_, delivered.fetched, ?_⟩
  · intro e he
    obtain ⟨results, filled⟩ := delivered.filled e he
    refine ⟨results, ?_⟩
    by_cases same : e.2.generation = h.generation
    · have here : e = (r, h) := List.inj_on_of_nodup_map delivered.distinct he told same
      subst here
      have there : s.fan.cache.slots? h = some (results.map some) ∧ s.takesOf h = [] := by
        rcases filled.held with there | ⟨missing, _⟩
        · exact there
        · rw [found] at missing
          cases missing
      rw [found, Option.some.injEq] at there
      refine ⟨filled.length, filled.fetched, filled.written, .inr ⟨?_, ?_⟩⟩
      · exact (gone h).trans (if_pos ⟨rfl, rfl⟩)
      · have first : ((h, slots) :: s.taken).filter (fun e => e.1 = h) =
            (h, slots) :: s.taken.filter fun e => e.1 = h := List.filter_cons_of_pos (by simp)
        show (((h, slots) :: s.taken).filter fun e => e.1 = h).map (·.2) = _
        rw [first, List.map_cons, there.1]
        exact congrArg _ there.2
    · refine filled.congr ((gone e.2).trans (if_neg fun both => same both.2)) rfl ?_
      have different : h ≠ e.2 := fun both => same (by rw [both])
      show (((h, slots) :: s.taken).filter fun f => f.1 = e.2).map (·.2) = _
      rw [List.filter_cons_of_neg (by simpa using different)]
      rfl
  · exact fun e he => next ▸ delivered.old e he
  · exact fun w hw => next ▸ delivered.written w hw
  · intro e he
    rcases List.mem_cons.mp he with rfl | he
    · exact ⟨r, told⟩
    · exact delivered.taken e he

end Delivered

end FanState

end ChainIndex
