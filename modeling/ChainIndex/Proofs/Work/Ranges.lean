import ChainIndex.Proofs.Work.Draining

/-!
# Ranges are fetched as if in sequence

Requests for many blocks come from many callers, and the workers of one pool fetch their slots in
any order.  What a caller gets is still what it would get by fetching its numbers one after the
other (`range_fetched_in_order`): a request that is answered with an array has one result there for
each of its numbers, in order, and no slot was left out or written twice.
-/

namespace ChainIndex

variable {κ ι α ρ : Type}

namespace FanState

variable {s t : FanState κ ι α ρ} {fetches : UInt64 → α → Prop} {d : Nat} {r : RangeRequest ρ}
  {h : SlotHandle}

namespace Sound

/-! ## The pool -/

/-- A step of the workers that no slot notices. -/
theorem of_due (sound : s.Sound fetches) {crew : PoolState κ (FanJob ι ρ)} {stage : Nat → SlotStage}
    (staffed : ({ s.withCrew crew with stage := stage } : FanState κ ι α ρ).Staffed)
    (due : ∀ stages weigh, stages .fetching = true → stages .counted = false →
      ({ s.withCrew crew with stage := stage } : FanState κ ι α ρ).due stages weigh =
        s.due stages weigh) :
    ({ s.withCrew crew with stage := stage } : FanState κ ι α ρ).Sound fetches where
  staffed := staffed
  queued := sound.queued.congr rfl
  drains := sound.drains.congr (fun weigh => due _ weigh rfl rfl) (fun weigh => due _ weigh rfl rfl)
    (fun _ _ _ => rfl) (fun _ _ => rfl) rfl rfl rfl rfl rfl rfl
  delivered := sound.delivered.congr rfl rfl rfl rfl
  tracked := sound.tracked

/-- A caller lines up with items that fill no slot. -/
theorem lineUp (sound : s.Sound fetches) (who : κ) {items : List (PoolItem (FanJob ι ρ))}
    (light : ∀ item ∈ items, ∀ weigh, slotWeight weigh item = 0) : (s.lineUp who items).Sound fetches := by
  refine sound.of_due (sound.staffed.lineUp who items) ?_
  intro stages weigh _ _
  have none_weighs : (items.map (slotWeight weigh)).sum = 0 := by
    refine List.sum_eq_zero ?_
    intro weight hweight
    obtain ⟨item, member, rfl⟩ := List.mem_map.mp hweight
    exact light item member weigh
  exact (due_lineUp s who items).trans (by rw [none_weighs, Nat.add_zero])

theorem exits (sound : s.Sound fetches) (who : κ) (count : Nat) :
    (s.lineUp who (List.replicate count .exit)).Sound fetches := by
  refine sound.lineUp who ?_
  intro item member weigh
  rw [List.eq_of_mem_replicate member]
  rfl

theorem setWorkers (sound : s.Sound fetches) (count : UInt16) :
    (s.withCrew ⟨(s.fan.pool.setWorkers count).2.2, s.leaving⟩).Sound fetches :=
  sound.of_due (sound.staffed.setWorkers count) fun _ _ _ _ => due_setWorkers s count

theorem shutdown (sound : s.Sound fetches) :
    (s.withCrew ⟨s.fan.pool.shutdown.2, s.leaving⟩).Sound fetches := by
  have distinct := sound.staffed.distinct
  exact sound.of_due ⟨⟨distinct.nodup, distinct.issued⟩, sound.staffed.stage⟩ fun _ _ _ _ => rfl

theorem pool (sound : s.Sound fetches) {crew : PoolState κ (FanJob ι ρ)}
    (step : PoolStep s.crew crew) : (s.withCrew crew).Sound fetches :=
  sound.of_due (sound.staffed.pool step) fun _ _ fetching _ => due_pool sound.staffed step fetching

theorem finish (sound : s.Sound fetches) {w : Nat} {j : FanJob ι ρ} (busy : (w, j) ∈ s.fan.pool.busy)
    (ended : ∀ h i n, j = .slot h i n → s.stage w = .counted) :
    ((s.withCrew ⟨s.fan.pool.finish w, s.leaving⟩).reaches w .fetching).Sound fetches :=
  sound.of_due (sound.staffed.finish busy) fun _ _ _ counted =>
    due_finish sound.staffed busy ended counted

/-! ## The queue -/

theorem enqueue (sound : s.Sound fetches) {started : Option Nat} {queue : RangeQueue ρ}
    (accepted : s.fan.queue.accept? r = some (started, queue)) :
    ({ s.withQueue queue with asked := r :: s.asked } : FanState κ ι α ρ).Sound fetches := by
  have queued : queue.Sound ∧ queue.Full :=
    ⟨sound.queued.sound.accept accepted, sound.queued.full.accept sound.queued.sound accepted⟩
  have items : ∀ d' r', s.fan.queue.draining = [(d', r')] →
      queue.itemsLeft r'.id = s.fan.queue.itemsLeft r'.id := by
    intro d' r' on
    have inside : r' ∈ s.fan.queue.inside := by simp [RangeQueue.inside, on]
    rw [RangeQueue.itemsLeft_accept accepted,
      if_neg (sound.queued.sound.fresh accepted r' inside)]
  obtain ⟨_, rfl⟩ := RangeQueue.accept?_some accepted
  refine ⟨sound.staffed.congr rfl rfl, ⟨queued.1, queued.2⟩,
    sound.drains.congr (fun _ => rfl) (fun _ => rfl) items (fun _ _ => rfl) rfl rfl rfl rfl rfl rfl,
    sound.delivered.congr rfl rfl rfl rfl, ?_⟩
  refine (sound.tracked.cons r).trans (List.perm_middle.symm.trans (List.Perm.append_left _ ?_))
  simp only [unanswered, withQueue, List.append_assoc, List.singleton_append]
  exact List.perm_middle.symm

theorem again (sound : s.Sound fetches) (reason : String) :
    ({ s.answer r (.rejected reason) with asked := r :: s.asked } : FanState κ ι α ρ).Sound fetches where
  staffed := sound.staffed.congr rfl rfl
  queued := sound.queued.congr rfl
  drains := sound.drains.congr (fun _ => rfl) (fun _ => rfl) (fun _ _ _ => rfl) (fun _ _ => rfl)
    rfl rfl rfl rfl rfl rfl
  delivered := sound.delivered.congr rfl rfl rfl rfl
  tracked := sound.tracked.cons r

theorem send (sound : s.Sound fetches) (accepted : r ∈ s.fan.queue.sending) :
    (s.withQueue (s.fan.queue.send r.id)).Sound fetches := by
  have queued : (s.fan.queue.send r.id).Sound ∧ (s.fan.queue.send r.id).Full :=
    ⟨sound.queued.sound.send accepted, sound.queued.full.send sound.queued.sound accepted⟩
  rw [RangeQueue.send_of_mem sound.queued.sound accepted] at queued ⊢
  refine ⟨sound.staffed.congr rfl rfl, ⟨queued.1, queued.2⟩,
    sound.drains.congr (fun _ => rfl) (fun _ => rfl) (fun _ _ _ => rfl) (fun _ _ => rfl)
      rfl rfl rfl rfl rfl rfl,
    sound.delivered.congr rfl rfl rfl rfl, ?_⟩
  refine sound.tracked.trans (List.Perm.append_left _ ?_)
  exact (RangeQueue.waiting_send sound.queued.sound accepted).symm.append_right _

theorem receive (sound : s.Sound fetches) {queue : RangeQueue ρ}
    (received : s.fan.queue.receive? d = some (r, queue)) : (s.withQueue queue).Sound fetches := by
  have queued : queue.Sound ∧ queue.Full :=
    ⟨sound.queued.sound.receive received, sound.queued.full.receive sound.queued.sound received⟩
  obtain ⟨_, off, rest, line, same⟩ := RangeQueue.receive?_some sound.queued.sound received
  obtain ⟨free, silent, quiet⟩ := sound.drains.at_rest off
  have on : queue.draining = [(d, r)] := by rw [same]
  have full : queue.itemsLeft r.id = r.numbers.length := by
    rw [same]
    exact sound.queued.full r (by simp [line])
  refine ⟨sound.staffed.congr rfl rfl, ⟨queued.1, queued.2⟩,
    .received on free silent full quiet, sound.delivered.congr rfl rfl rfl rfl, ?_⟩
  have tracked := sound.tracked
  rw [Tracked, unanswered_of_off off, line] at tracked
  rw [Tracked, unanswered_of_silent (s := s.withQueue queue) on silent]
  refine tracked.trans (List.Perm.append_left _ ?_)
  show (_ : List (RangeRequest ρ)).Perm (queue.sending ++ queue.channel ++ [r])
  rw [same, List.append_assoc]
  exact List.Perm.append_left _ (List.perm_append_singleton r rest).symm

/-! ## The drainer -/

/-- A new array is all open, and each of its slots has a job. -/
theorem fills_allocate (sound : s.Sound fetches) {cache : SlotCache α}
    (allocated : s.fan.cache.allocate r.id r.numbers.length = .ok (h, cache))
    (full : s.fan.queue.itemsLeft r.id = r.numbers.length) (rest : s.uncounted (fun _ => 1) = 0)
    (who : κ) :
    (((s.withCache cache).waitsFor d h).lineUp who (Fanout.slotJobs h r.numbers)).Fills r h
      (List.replicate r.numbers.length none) := by
  obtain ⟨handle, next, stored, _⟩ := SlotCache.allocate_ok allocated
  have due (stages : SlotStage → Bool) (weigh : SlotTask → Nat) (none_due : s.due stages weigh = 0) :
      (((s.withCache cache).waitsFor d h).lineUp who (Fanout.slotJobs h r.numbers)).due stages weigh =
        ((slotTasks h r.numbers).map weigh).sum := by
    have before : ((s.withCache cache).waitsFor d h).due stages weigh = 0 := none_due
    rw [due_lineUp, slotJobs_weight, before, Nat.zero_add]
  have uncounted (weigh : SlotTask → Nat) := due (· ≠ .counted) weigh (due_eq_zero rest weigh)
  have unwritten (weigh : SlotTask → Nat) := due (· = .fetching) weigh
    (Nat.le_zero.mp ((s.unwritten_le_uncounted weigh).trans (due_eq_zero rest weigh).le))
  exact {
    key := by rw [handle]
    length := by rw [handle]
    slots_length := List.length_replicate
    stored := stored
    old := by
      show h.generation < cache.nextGeneration
      rw [handle, next]
      exact Nat.lt_succ_self _
    other := by
      intro e he same
      have old := sound.delivered.old e he
      rw [same, handle] at old
      exact Nat.lt_irrefl _ old
    written := by
      rw [filledWrites_empty, List.perm_nil]
      refine List.filter_eq_nil_iff.mpr ?_
      intro w hw same
      have old := sound.delivered.written w hw
      rw [of_decide_eq_true same, handle] at old
      exact Nat.lt_irrefl _ old
    unwritten := by
      intro weigh
      rw [openTasks_empty]
      exact unwritten weigh
    uncounted := by
      refine (uncounted _).trans ?_
      rw [List.map_const', List.sum_replicate_nat, length_slotTasks, Nat.mul_one]
      exact full.symm
    own := by
      refine (uncounted _).trans (List.sum_eq_zero ?_)
      intro weight hweight
      obtain ⟨x, member, rfl⟩ := List.mem_map.mp hweight
      exact if_pos (slotTasks_handle member) }

theorem allocate (sound : s.Sound fetches) {cache : SlotCache α}
    (on : (d, r) ∈ s.fan.queue.draining) (begins : ∀ h, (d, h) ∉ s.fan.handles)
    (silent : d ∉ s.answered)
    (allocated : s.fan.cache.allocate r.id r.numbers.length = .ok (h, cache)) (who : κ) :
    (((s.withCache cache).waitsFor d h).lineUp who (Fanout.slotJobs h r.numbers)).Sound fetches := by
  obtain ⟨here, free, quiet, full, rest⟩ := sound.drains.at_begin on begins silent
  have waiting : ((s.withCache cache).waitsFor d h).Staffed :=
    sound.staffed.congr rfl rfl
  exact ⟨waiting.lineUp who _, sound.queued.congr rfl,
    .filling here (congrArg _ free) quiet (sound.fills_allocate allocated full rest who),
    (sound.delivered.allocate allocated).congr rfl rfl rfl rfl, sound.tracked⟩

theorem decline (sound : s.Sound fetches) (on : (d, r) ∈ s.fan.queue.draining)
    (begins : ∀ h, (d, h) ∉ s.fan.handles) (silent : d ∉ s.answered) (reason : String) :
    ({ (s.withQueue (r.numbers.foldl (fun q _ => q.onBarrier r.id Barrier.done) s.fan.queue)).answer
        r (.rejected reason) with answered := d :: s.answered } : FanState κ ι α ρ).Sound fetches := by
  obtain ⟨here, free, quiet, _, rest⟩ := sound.drains.at_begin on begins silent
  have touched := RangeQueue.touched_foldl_onBarrier r.id Barrier.done r.numbers s.fan.queue
  have queued := sound.queued.full.touched sound.queued.sound here touched
  have valid := touched.sound sound.queued.sound
  generalize r.numbers.foldl (fun q _ => q.onBarrier r.id Barrier.done) s.fan.queue = queue at *
  have draining : queue.draining = [(d, r)] := by rw [touched.rest]; exact here
  refine ⟨sound.staffed.congr rfl rfl, ⟨valid, queued⟩,
    .replied draining (congrArg _ quiet) (by simp [answer, withQueue, free]) rest,
    sound.delivered.congr rfl rfl rfl rfl, ?_⟩
  exact sound.tracked.answer here quiet rfl (congrArg _ quiet) rfl (draining.trans here.symm)
    (by rw [touched.rest]; rfl) (by rw [touched.rest]; rfl)

theorem pass (sound : s.Sound fetches) (on : (d, r) ∈ s.fan.queue.draining)
    (waits : (d, h) ∈ s.fan.handles) (silent : d ∉ s.answered)
    (done : s.fan.queue.itemsLeft r.id = 0) :
    ({ s.answer r (.ready h) with answered := d :: s.answered } : FanState κ ι α ρ).Sound fetches := by
  obtain ⟨here, there, quiet, slots, fills⟩ := sound.drains.at_barrier on waits silent
  refine ⟨sound.staffed.congr rfl rfl, sound.queued.congr rfl,
    .replied here (congrArg _ quiet) (by simp [answer, there]) (fills.uncounted.trans done),
    sound.delivered.pass fills done,
    sound.tracked.answer here quiet rfl (congrArg _ quiet) rfl rfl rfl rfl⟩

theorem retire (sound : s.Sound fetches) (told : d ∈ s.answered) :
    ({ s with fan := s.fan.retire d, answered := s.answered.filter (· ≠ d) } :
      FanState κ ι α ρ).Sound fetches := by
  obtain ⟨r, on, only, waited, rest⟩ := sound.drains.at_end told
  have queued : (s.fan.queue.complete d).Sound ∧ (s.fan.queue.complete d).Full :=
    ⟨sound.queued.sound.complete on, sound.queued.full.complete sound.queued.sound on⟩
  have off : (s.fan.queue.complete d).draining = [] := by rw [RangeQueue.complete_of_on on]
  refine ⟨sound.staffed.congr rfl rfl, ⟨queued.1, queued.2⟩,
    .idle off ?_ (by simp [only]) rest, sound.delivered.congr rfl rfl rfl rfl, ?_⟩
  · refine List.filter_eq_nil_iff.mpr ?_
    intro e he
    simp [waited e he]
  · have tracked := sound.tracked
    rw [Tracked, unanswered_of_told on only] at tracked
    refine tracked.trans (List.Perm.append_left _ ?_)
    have after := unanswered_of_off
      (s := { s with fan := s.fan.retire d, answered := s.answered.filter (· ≠ d) }) off
    rw [after, Fanout.retire, RangeQueue.complete_of_on on]

/-! ## Workers on a slot -/

theorem write (sound : s.Sound fetches) {w : Nat} {x : SlotTask} {a : α}
    (busy : (w, .slot x.handle x.index x.number) ∈ s.fan.pool.busy) (stage : s.stage w = .fetching)
    (result : fetches x.number a) :
    ({ s.reaches w .written with
        fan := s.fan.write x.handle x.index a
        writes := ⟨x, a, (s.fan.cache.setItem x.handle x.index a).toBool⟩ :: s.writes } :
      FanState κ ι α ρ).Sound fetches := by
  obtain ⟨d, r, slots, on, waits, silent, fills⟩ := sound.drains.at_work busy (by simp [stage])
  obtain ⟨_, number, empty⟩ := fills.open_of_busy busy stage
  obtain ⟨cache, set, next, wrote⟩ := SlotCache.setItem_ok fills.stored empty a
  have fan : s.fan.write x.handle x.index a = { s.fan with cache := cache } := by
    rw [Fanout.write, set]
    rfl
  have kept : (s.fan.cache.setItem x.handle x.index a).toBool = true := by
    rw [set]
    rfl
  rw [fan, kept]
  have staffed := sound.staffed.reaches busy .written
  refine ⟨staffed.congr rfl rfl, sound.queued.congr rfl, ?_,
    sound.delivered.write (w := w) fills.other fills.old result next ?_, sound.tracked⟩
  · refine .filling on waits silent (?_ : Fills _ r x.handle (slots.set x.index (some a)))
    refine {
      key := fills.key
      length := fills.length
      slots_length := by rw [List.length_set]; exact fills.slots_length
      stored := (wrote x.handle).trans (if_pos ⟨rfl, rfl⟩)
      old := next ▸ fills.old
      other := fills.other
      written := ?_
      unwritten := ?_
      uncounted := (uncounted_write sound.staffed _ busy stage).trans fills.uncounted
      own := (uncounted_write sound.staffed _ busy stage).trans fills.own }
    · have first : (⟨x, a, true⟩ :: s.writes).filter (fun w => w.task.handle = x.handle) =
          ⟨x, a, true⟩ :: s.writesTo x.handle := List.filter_cons_of_pos (by simp)
      show ((⟨x, a, true⟩ :: s.writes).filter fun w => w.task.handle = x.handle).Perm _
      rw [first]
      exact (fills.written.cons _).trans (filledWrites_set number empty a).symm
    · -- the array has one open slot less, and the workers one slot less to write
      intro weigh
      have before := fills.unwritten weigh
      rw [((openTasks_set (h := x.handle) number empty a).map weigh).sum_nat, List.map_cons,
        List.sum_cons, ← unwritten_write sound.staffed weigh busy stage] at before
      show (s.reaches w .written).unwritten weigh = _
      have same : weigh ⟨x.handle, x.index, x.number⟩ = weigh x := rfl
      omega
  · intro k different
    rw [wrote k, if_neg different]

theorem count (sound : s.Sound fetches) {w : Nat} {x : SlotTask}
    (busy : (w, .slot x.handle x.index x.number) ∈ s.fan.pool.busy) (stage : s.stage w = .written) :
    ({ s.reaches w .counted with fan := s.fan.countDown x.handle } :
      FanState κ ι α ρ).Sound fetches := by
  obtain ⟨d, r, slots, on, waits, silent, fills⟩ := sound.drains.at_work busy (by simp [stage])
  have touched := RangeQueue.touched_onBarrier s.fan.queue r.id Barrier.done
  have staffed := sound.staffed.reaches busy .counted
  have counted (weigh : SlotTask → Nat) := uncounted_count sound.staffed weigh busy stage
  rw [Fanout.countDown, fills.key]
  refine ⟨staffed.congr rfl rfl, ⟨touched.sound sound.queued.sound,
    sound.queued.full.touched sound.queued.sound on touched⟩, ?_,
    sound.delivered.congr rfl rfl rfl rfl, sound.tracked⟩
  refine .filling on waits silent (?_ : Fills _ r x.handle slots)
  refine {
    key := fills.key
    length := fills.length
    slots_length := fills.slots_length
    stored := fills.stored
    old := fills.old
    other := fills.other
    written := fills.written
    unwritten := fun weigh =>
      (unwritten_count sound.staffed weigh busy stage).trans (fills.unwritten weigh)
    uncounted := ?_
    own := ?_ }
  · -- the barrier counts one slot less, and so do the workers
    show (s.reaches w .counted).uncounted _ =
      (s.fan.queue.onBarrier r.id Barrier.done).itemsLeft r.id
    rw [RangeQueue.itemsLeft_done, if_pos rfl, ← fills.uncounted]
    have one := counted fun _ => 1
    omega
  · show (s.reaches w .counted).uncounted _ = 0
    have all := counted fun t => if t.handle = x.handle then 0 else 1
    have none_due := fills.own
    omega

/-- A caller takes the array that it was told. -/
theorem take (sound : s.Sound fetches) {slots : List (Option α)} {cache : SlotCache α}
    (told : (r, .ready h) ∈ s.answers) (takes : s.fan.cache.takeArray h = .ok (slots, cache)) :
    ({ s.withCache cache with taken := (h, slots) :: s.taken } : FanState κ ι α ρ).Sound fetches := by
  have ready : (r, h) ∈ s.ready := mem_ready.mpr told
  obtain ⟨_, next, gone⟩ := SlotCache.takeArray_ok takes
  refine ⟨sound.staffed.congr rfl rfl, sound.queued.congr rfl,
    sound.drains.congr (fun _ => rfl) (fun _ => rfl) (fun _ _ _ => rfl) ?_ rfl rfl rfl rfl rfl next,
    sound.delivered.take ready takes, sound.tracked⟩
  intro k other
  exact (gone k).trans (if_neg fun same => other _ ready same.2.symm)

end Sound

theorem Sound.start (capacity : Nat) :
    ({ fan := Fanout.ofCapacity capacity } : FanState κ ι α ρ).Sound fetches where
  staffed := ⟨⟨.nil, nofun⟩, fun _ begun => absurd rfl begun⟩
  queued := ⟨.empty, nofun⟩
  drains := .idle rfl rfl rfl rfl
  delivered := ⟨nofun, .nil, nofun, nofun, nofun, nofun⟩
  tracked := .nil

end FanState

/-! ## Every run -/

variable {s t : FanState κ ι α ρ} {fetches : UInt64 → α → Prop} {toZero : Prop}

theorem FanCall.sound (call : FanCall toZero s t) (sound : s.Sound fetches) : t.Sound fetches := by
  cases call with
  | enqueue accepted => exact sound.enqueue accepted
  | again => exact sound.again _
  | ask who question returns => exact sound.lineUp who (by simp [slotWeight])
  | scale who => exact (sound.setWorkers _).exits who _
  | shutdown who => exact sound.shutdown.exits who _
  | take told takes => exact sound.take told takes

variable [BEq κ] {caller : Nat → κ}

theorem FanWork.sound (work : FanWork caller fetches s t) (sound : s.Sound fetches) :
    t.Sound fetches := by
  cases work with
  | send accepted => exact sound.send accepted
  | receive received => exact sound.receive received
  | allocate on begins silent allocated => exact sound.allocate on begins silent allocated _
  | decline on begins silent => exact sound.decline on begins silent _
  | pass on waits silent _ done => exact sound.pass on waits silent done
  | retire told => exact sound.retire told
  | pool step => exact sound.pool step
  | write busy stage result => exact sound.write busy stage result
  | count busy stage => exact sound.count busy stage
  | finish busy ended => exact sound.finish busy ended

namespace FanState

theorem Reachable.sound (reach : Reachable caller fetches toZero s) : s.Sound fetches := by
  induction reach with
  | start capacity => exact .start capacity
  | call _ call ih => exact call.sound ih
  | work _ work ih => exact work.sound ih

/-- A request that is answered with an array has the results for its numbers there, in order, each
written once.  No two requests share an array, and each request is answered once or has no answer. -/
theorem range_fetched_in_order (reach : Reachable caller fetches toZero s) :
    (∀ r h, (r, .ready h) ∈ s.answers → ∃ results, s.Filled fetches r h results) ∧
      (s.ready.map (·.2)).Nodup ∧ s.asked.Perm (s.answers.map (·.1) ++ s.unanswered) := by
  have sound := reach.sound
  refine ⟨?_, ?_, sound.tracked⟩
  · intro r h told
    exact sound.delivered.filled _ (mem_ready.mpr told)
  · have distinct := sound.delivered.distinct
    rw [← Function.comp_def SlotHandle.generation, ← List.map_map] at distinct
    exact distinct.of_map

/-- A request for two blocks comes to a pool that is scaled to two workers.  They take one block
each, the second one is done first, and the request is answered. -/
theorem two_blocks_answered :
    ∃ s : FanState Nat Unit Nat Nat, Reachable id (fun n a => a = 10 * n.toNat) False s ∧
      (⟨"a", [7, 9], some 0⟩, .ready ⟨"a", 1, 2⟩) ∈ s.answers ∧
      s.writes.map (·.task.number) = [7, 9] := by
  let r : RangeRequest Nat := ⟨"a", [7, 9], some 0⟩
  let x : SlotTask := ⟨⟨"a", 1, 2⟩, 0, 7⟩
  let y : SlotTask := ⟨⟨"a", 1, 2⟩, 1, 9⟩
  have asked : Reachable (κ := Nat) (ι := Unit) (α := Nat) (ρ := Nat) id
      (fun n a => a = 10 * n.toNat) False _ :=
    .call (.start 1) (.enqueue (r := r) rfl)
  have scaled := asked.call (.scale 0 (.inl (by decide : (2 : UInt16) ≠ 0)))
  have sent := scaled.work (.send (r := r) List.mem_cons_self)
  have received := sent.work (.receive (d := 1) (r := r) rfl)
  have allocated := received.work
    (.allocate (d := 1) (r := r) (h := x.handle) List.mem_cons_self nofun nofun rfl)
  -- the queue of the pool has room for one job, so the second one waits
  have first := allocated.work (.pool (.letIn (.refl _) rfl))
  have started := (first.work (.pool (.start (List.mem_cons_self (a := 1))))).work
    (.pool (.start (List.mem_cons_self (a := 2))))
  have taken := started.work (.pool (@PoolStep.takeJob _ _ _ [1, 2] 1 _ _ (.refl _) rfl))
  have second := taken.work (.pool (.letIn (.refl _) rfl))
  have both := second.work (.pool (@PoolStep.takeJob _ _ _ [2] 2 _ _ (.refl _) rfl))
  have late := both.work (.write (w := 2) (t := y) (.tail _ List.mem_cons_self) rfl rfl)
  have early := late.work (.count (w := 2) (t := y) (.tail _ List.mem_cons_self) rfl)
  have written := early.work (.write (w := 1) (t := x) List.mem_cons_self rfl rfl)
  have counted := written.work (.count (w := 1) (t := x) List.mem_cons_self rfl)
  have passed := counted.work (.pass (d := 1) (r := r) (h := x.handle) List.mem_cons_self
    List.mem_cons_self nofun rfl rfl)
  exact ⟨_, passed, List.mem_cons_self, rfl⟩

/-- The array has the results in the order of the request, though the last one was written first. -/
theorem range_fetched_in_order_of_two_blocks :
    ∃ s : FanState Nat Unit Nat Nat, Reachable id (fun n a => a = 10 * n.toNat) False s ∧
      s.Filled (fun n a => a = 10 * n.toNat) ⟨"a", [7, 9], some 0⟩ ⟨"a", 1, 2⟩ [70, 90] ∧
      s.writes.map (·.task.number) = [7, 9] := by
  obtain ⟨s, reach, told, writes⟩ := two_blocks_answered
  obtain ⟨results, filled⟩ := (range_fetched_in_order reach).1 _ _ told
  have results : results = [70, 90] := filled.eq_map
  exact ⟨s, reach, results ▸ filled, writes⟩

end FanState

end ChainIndex
