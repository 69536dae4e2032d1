import Mathlib.Data.List.Forall2
import ChainIndex.Proofs.Work.Fanout

/-!
# How an array fills

The array of a request has one slot for each number.  While its drainer waits, some slots have a
result and the others have a worker to come: `Fills` says that the writes to the array are those of
the slots with a result, that the slots without one are those that no worker has written, and that
the barrier of the request counts the slots that no worker has counted down.

Where nothing is left to count, every slot has a result, and the array is `Filled`: each slot was
written once, with the result for its own number.
-/

namespace ChainIndex

/-! ## Slots with their tasks -/

/-- The slots of an array, in order. -/
def slotTasks (h : SlotHandle) (numbers : List UInt64) : List SlotTask :=
  numbers.zipIdx.map fun (n, i) => ⟨h, i, n⟩

/-- The writes that fill an array. -/
def slotWrites {α : Type} (h : SlotHandle) (numbers : List UInt64) (results : List α) :
    List (SlotWrite α) :=
  List.zipWith (fun t a => ⟨t, a, true⟩) (slotTasks h numbers) results

variable {κ ι α ρ : Type} {h : SlotHandle} {numbers : List UInt64} {slots : List (Option α)}

theorem length_slotTasks (h : SlotHandle) (numbers : List UInt64) :
    (slotTasks h numbers).length = numbers.length := by
  simp [slotTasks]

theorem getElem?_slotTasks (h : SlotHandle) (numbers : List UInt64) (i : Nat) :
    (slotTasks h numbers)[i]? = numbers[i]?.map fun n => ⟨h, i, n⟩ := by
  simp [slotTasks, List.getElem?_zipIdx, Function.comp_def]

theorem slotTasks_handle {t : SlotTask} (member : t ∈ slotTasks h numbers) : t.handle = h := by
  obtain ⟨_, _, rfl⟩ := List.mem_map.mp member
  rfl

theorem slotJobs_weight (weigh : SlotTask → Nat) (h : SlotHandle) (numbers : List UInt64) :
    (Fanout.slotJobs h numbers : List (PoolItem (FanJob ι ρ))).map (slotWeight weigh) =
      (slotTasks h numbers).map weigh := by
  rw [Fanout.slotJobs, slotTasks, List.map_map, List.map_map]
  rfl

/-- The slots of an array with what they hold. -/
def slotEntries (h : SlotHandle) (numbers : List UInt64) (slots : List (Option α)) :
    List (SlotTask × Option α) := (slotTasks h numbers).zip slots

/-- The write that a slot holds. -/
def writeOf (e : SlotTask × Option α) : Option (SlotWrite α) := e.2.map fun a => ⟨e.1, a, true⟩

/-- The slot, where it holds nothing. -/
def openOf (e : SlotTask × Option α) : Option SlotTask := if e.2.isNone then some e.1 else none

/-- The slots of an array that hold something, as writes. -/
def filledWrites (h : SlotHandle) (numbers : List UInt64) (slots : List (Option α)) :
    List (SlotWrite α) := (slotEntries h numbers slots).filterMap writeOf

/-- The slots of an array that hold nothing. -/
def openTasks (h : SlotHandle) (numbers : List UInt64) (slots : List (Option α)) : List SlotTask :=
  (slotEntries h numbers slots).filterMap openOf

theorem mem_openTasks {t : SlotTask} (member : t ∈ openTasks h numbers slots) :
    t.handle = h ∧ numbers[t.index]? = some t.number ∧ slots[t.index]? = some none := by
  obtain ⟨⟨t', slot⟩, entry, held⟩ := List.mem_filterMap.mp member
  cases slot with
  | some a => cases held
  | none =>
    cases held
    obtain ⟨i, entry⟩ := List.mem_iff_getElem?.mp entry
    obtain ⟨task, slot⟩ := List.getElem?_zip_eq_some.mp entry
    rw [getElem?_slotTasks, Option.map_eq_some_iff] at task
    obtain ⟨n, number, rfl⟩ := task
    exact ⟨rfl, number, slot⟩

/-- Where a slot is written, that slot holds its write and no other slot changes. -/
theorem slotEntries_set {i : Nat} {n : UInt64} (number : numbers[i]? = some n)
    (empty : slots[i]? = some none) (a : α) :
    ∃ others, (slotEntries h numbers slots).Perm ((⟨h, i, n⟩, none) :: others) ∧
      (slotEntries h numbers (slots.set i (some a))).Perm ((⟨h, i, n⟩, some a) :: others) := by
  let entries := slotEntries h numbers slots
  have task : (slotTasks h numbers)[i]? = some ⟨h, i, n⟩ := by rw [getElem?_slotTasks, number]; rfl
  have entry : entries[i]? = some (⟨h, i, n⟩, none) := List.getElem?_zip_eq_some.mpr ⟨task, empty⟩
  obtain ⟨inside, here⟩ := List.getElem?_eq_some_iff.mp entry
  have set : slotEntries h numbers (slots.set i (some a)) = entries.set i (⟨h, i, n⟩, some a) := by
    refine List.ext_getElem? ?_
    intro j
    by_cases same : i = j
    · subst same
      have written : i < slots.length := (List.getElem?_eq_some_iff.mp empty).1
      rw [List.getElem?_set_self inside]
      exact List.getElem?_zip_eq_some.mpr ⟨task, List.getElem?_set_self written⟩
    · rw [List.getElem?_set_ne same]
      simp only [entries, slotEntries, List.zip, List.getElem?_zipWith, List.getElem?_set_ne same]
  refine ⟨entries.eraseIdx i, ?_, ?_⟩
  · have erased := List.getElem_cons_eraseIdx_perm inside
    rw [here] at erased
    exact erased.symm
  · rw [set]
    exact List.set_perm_cons_eraseIdx inside _

theorem openTasks_set {i : Nat} {n : UInt64} (number : numbers[i]? = some n)
    (empty : slots[i]? = some none) (a : α) :
    (openTasks h numbers slots).Perm (⟨h, i, n⟩ :: openTasks h numbers (slots.set i (some a))) := by
  obtain ⟨others, before, after⟩ := slotEntries_set (h := h) number empty a
  exact (before.filterMap openOf).trans ((after.filterMap openOf).symm.cons _)

theorem filledWrites_set {i : Nat} {n : UInt64} (number : numbers[i]? = some n)
    (empty : slots[i]? = some none) (a : α) :
    (filledWrites h numbers (slots.set i (some a))).Perm
      (⟨⟨h, i, n⟩, a, true⟩ :: filledWrites h numbers slots) := by
  obtain ⟨others, before, after⟩ := slotEntries_set (h := h) number empty a
  exact (after.filterMap writeOf).trans ((before.filterMap writeOf).symm.cons _)

theorem openTasks_empty (h : SlotHandle) (numbers : List UInt64) :
    openTasks h numbers (List.replicate numbers.length (none : Option α)) = slotTasks h numbers := by
  have all : ∀ e ∈ slotEntries h numbers (List.replicate numbers.length (none : Option α)),
      openOf e = some e.1 := by
    intro e he
    have slot := List.eq_of_mem_replicate (List.of_mem_zip he).2
    simp [openOf, slot]
  rw [openTasks, List.filterMap_congr all, List.filterMap_eq_map', slotEntries,
    List.map_fst_zip (by simp [length_slotTasks])]

theorem filledWrites_empty (h : SlotHandle) (numbers : List UInt64) :
    filledWrites h numbers (List.replicate numbers.length (none : Option α)) = [] := by
  refine List.filterMap_eq_nil_iff.mpr ?_
  intro e he
  have slot := List.eq_of_mem_replicate (List.of_mem_zip he).2
  simp [writeOf, slot]

/-- Where no slot is open, each holds a result. -/
theorem results_of_openTasks (length : slots.length = numbers.length)
    (full : openTasks h numbers slots = []) : ∃ results : List α, slots = results.map some := by
  refine ⟨slots.filterMap id, ?_⟩
  have held : ∀ slot ∈ slots, ∃ a, slot = some a := by
    intro slot member
    obtain ⟨i, there⟩ := List.mem_iff_getElem?.mp member
    have inside := (List.getElem?_eq_some_iff.mp there).1
    have task : (slotTasks h numbers)[i]? = some ⟨h, i, numbers[i]⟩ := by
      rw [getElem?_slotTasks, List.getElem?_eq_getElem (length ▸ inside)]
      rfl
    have entry : (slotEntries h numbers slots)[i]? = some (⟨h, i, numbers[i]⟩, slot) :=
      List.getElem?_zip_eq_some.mpr ⟨task, there⟩
    have closed := List.filterMap_eq_nil_iff.mp full _ (List.mem_of_getElem? entry)
    cases slot with
    | none => cases closed
    | some a => exact ⟨a, rfl⟩
  clear full length
  induction slots with
  | nil => rfl
  | cons slot rest ih =>
    obtain ⟨a, rfl⟩ := held slot List.mem_cons_self
    show some a :: rest = some a :: (rest.filterMap id).map some
    rw [← ih fun slot member => held slot (List.mem_cons_of_mem _ member)]

theorem filledWrites_full (h : SlotHandle) (numbers : List UInt64) (results : List α) :
    filledWrites h numbers (results.map some) = slotWrites h numbers results := by
  rw [filledWrites, slotEntries, List.zip_map_right, List.filterMap_map]
  have all : writeOf ∘ Prod.map id some = fun e : SlotTask × α => some ⟨e.1, e.2, true⟩ := rfl
  rw [all, List.filterMap_eq_map', slotWrites, List.zip, List.map_zipWith]

/-- The writes that fill an array are those for its numbers, in order. -/
theorem forall₂_slotWrites {fetches : UInt64 → α → Prop} {results : List α}
    (length : results.length = numbers.length)
    (fetched : ∀ w ∈ slotWrites h numbers results, fetches w.task.number w.result) :
    List.Forall₂ fetches numbers results := by
  refine List.forall₂_iff_zip.mpr ⟨length.symm, ?_⟩
  intro n a pair
  obtain ⟨i, pair⟩ := List.mem_iff_getElem?.mp pair
  obtain ⟨number, result⟩ := List.getElem?_zip_eq_some.mp pair
  have write : (slotWrites h numbers results)[i]? = some ⟨⟨h, i, n⟩, a, true⟩ := by
    simp only [slotWrites, List.getElem?_zipWith, getElem?_slotTasks, number, result, Option.map_some]
  exact fetched _ (List.mem_of_getElem? write)

/-! ## Arrays of a fan-out -/

namespace FanState

/-- The requests that were answered with an array. -/
def ready (s : FanState κ ι α ρ) : List (RangeRequest ρ × SlotHandle) :=
  s.answers.filterMap fun e =>
    match e.2 with
    | .ready h => some (e.1, h)
    | .rejected _ => none

/-- What was written to an array. -/
def writesTo (s : FanState κ ι α ρ) (h : SlotHandle) : List (SlotWrite α) :=
  s.writes.filter fun w => w.task.handle = h

/-- What callers took with a handle. -/
def takesOf (s : FanState κ ι α ρ) (h : SlotHandle) : List (List (Option α)) :=
  (s.taken.filter fun e => e.1 = h).map (·.2)

/-- The array of a request holds one result for each of its numbers, in order, and each of its slots
was written once.  It is in the cache until it is taken, which happens once at most. -/
structure Filled (s : FanState κ ι α ρ) (fetches : UInt64 → α → Prop) (r : RangeRequest ρ)
    (h : SlotHandle) (results : List α) : Prop where
  length : h.length = r.numbers.length
  fetched : List.Forall₂ fetches r.numbers results
  written : (s.writesTo h).Perm (slotWrites h r.numbers results)
  held : s.fan.cache.slots? h = some (results.map some) ∧ s.takesOf h = [] ∨
    s.fan.cache.slots? h = none ∧ s.takesOf h = [results.map some]

/-- An array on the way: some slots have a result, and the others have a worker to come. -/
structure Fills (s : FanState κ ι α ρ) (r : RangeRequest ρ) (h : SlotHandle)
    (slots : List (Option α)) : Prop where
  key : h.key = r.id
  length : h.length = r.numbers.length
  slots_length : slots.length = r.numbers.length
  stored : s.fan.cache.slots? h = some slots
  old : h.generation < s.fan.cache.nextGeneration
  other : ∀ e ∈ s.ready, e.2.generation ≠ h.generation
  written : (s.writesTo h).Perm (filledWrites h r.numbers slots)
  unwritten : ∀ weigh, s.unwritten weigh = ((openTasks h r.numbers slots).map weigh).sum
  uncounted : s.uncounted (fun _ => 1) = s.fan.queue.itemsLeft r.id
  -- no slot of another array is left
  own : s.uncounted (fun t => if t.handle = h then 0 else 1) = 0

variable {s t : FanState κ ι α ρ} {r : RangeRequest ρ}

theorem mem_ready : (r, h) ∈ s.ready ↔ (r, .ready h) ∈ s.answers := by
  rw [ready, List.mem_filterMap]
  constructor
  · rintro ⟨⟨r', a⟩, member, found⟩
    cases a with
    | ready k =>
      cases found
      exact member
    | rejected => cases found
  · intro member
    exact ⟨_, member, rfl⟩

/-- An array stays as it is where none of its slots is written and it is not taken. -/
theorem Filled.congr {fetches : UInt64 → α → Prop} {results : List α}
    (filled : s.Filled fetches r h results) (slots : t.fan.cache.slots? h = s.fan.cache.slots? h)
    (writes : t.writesTo h = s.writesTo h) (takes : t.takesOf h = s.takesOf h) :
    t.Filled fetches r h results where
  length := filled.length
  fetched := filled.fetched
  written := by
    rw [writes]
    exact filled.written
  held := by
    rw [slots, takes]
    exact filled.held

/-- Where fetching a number always brings the same, the array is what a map over the numbers gives. -/
theorem Filled.eq_map {fetch : UInt64 → α} {results : List α}
    (filled : s.Filled (fun n a => a = fetch n) r h results) : results = r.numbers.map fetch := by
  have fetched := filled.fetched
  clear filled
  generalize r.numbers = numbers at fetched ⊢
  induction fetched with
  | nil => rfl
  | cons same _ ih => rw [same, ih, List.map_cons]

/-- A slot whose worker is in one of some stages is due. -/
theorem le_due (stages : SlotStage → Bool) (weigh : SlotTask → Nat) {w : Nat} {x : SlotTask}
    (busy : (w, .slot x.handle x.index x.number) ∈ s.fan.pool.busy) (stage : stages (s.stage w)) :
    weigh x ≤ s.due stages weigh := by
  have one := List.le_sum_of_mem (List.mem_map_of_mem
    (f := fun b : Nat × FanJob ι ρ => stageWeight stages s.stage weigh b.1 b.2) busy)
  rw [stageWeight, if_pos stage] at one
  exact Nat.le_trans one (Nat.le_add_left _ _)

theorem due_eq_zero {stages : SlotStage → Bool} (none_due : s.due stages (fun _ => 1) = 0)
    (weigh : SlotTask → Nat) : s.due stages weigh = 0 := by
  have light (item : PoolItem (FanJob ι ρ)) (none : slotWeight (fun _ => 1) item = 0) :
      slotWeight weigh item = 0 := by
    cases item with
    | exit => rfl
    | job j =>
      cases j with
      | single => rfl
      | slot => cases none
  rw [due, Pool.waiting, Pool.held] at none_due ⊢
  simp only [Nat.add_eq_zero_iff, List.sum_eq_zero_iff, List.forall_mem_map] at none_due ⊢
  obtain ⟨⟨lined, queued⟩, held⟩ := none_due
  refine ⟨⟨fun who hwho item hitem => light item (lined who hwho item hitem), fun item hitem =>
    light item (queued item hitem)⟩, ?_⟩
  intro b hb
  have one := held b hb
  rw [stageWeight] at one ⊢
  split
  case isTrue counts =>
    rw [if_pos counts] at one
    exact light _ one
  case isFalse => rfl

namespace Fills

/-- A worker that is not done with a slot is on a slot of the array. -/
theorem handle_of_busy (fills : s.Fills r h slots) {w : Nat} {x : SlotTask}
    (busy : (w, .slot x.handle x.index x.number) ∈ s.fan.pool.busy) (stage : s.stage w ≠ .counted) :
    x.handle = h := by
  have due := le_due (· ≠ .counted) (fun t => if t.handle = h then 0 else 1) busy
    (by simpa using stage)
  have none_due := fills.own
  rw [FanState.uncounted] at none_due
  by_contra other
  simp only [if_neg other, none_due] at due
  omega

/-- A worker that has not written its slot is on a slot that is open. -/
theorem open_of_busy (fills : s.Fills r h slots) {w : Nat} {x : SlotTask}
    (busy : (w, .slot x.handle x.index x.number) ∈ s.fan.pool.busy) (stage : s.stage w = .fetching) :
    x.handle = h ∧ r.numbers[x.index]? = some x.number ∧ slots[x.index]? = some none := by
  have due := le_due (· = .fetching) (fun t => if t = x then 1 else 0) busy
    (by simpa using stage)
  have all := fills.unwritten fun t => if t = x then 1 else 0
  rw [FanState.unwritten] at all
  rw [all] at due
  by_cases member : x ∈ openTasks h r.numbers slots
  · exact mem_openTasks member
  · have none_open : ((openTasks h r.numbers slots).map fun t => if t = x then 1 else 0).sum = 0 := by
      refine List.sum_eq_zero ?_
      intro weight hweight
      obtain ⟨t, ht, rfl⟩ := List.mem_map.mp hweight
      exact if_neg fun same : t = x => member (same ▸ ht)
    simp only [none_open, if_true] at due
    omega

/-- Where every slot is counted down, the array is filled. -/
theorem filled (fills : s.Fills r h slots) {fetches : UInt64 → α → Prop}
    (fetched : ∀ w ∈ s.writes, fetches w.task.number w.result) (untaken : s.takesOf h = [])
    (done : s.fan.queue.itemsLeft r.id = 0) : ∃ results, s.Filled fetches r h results := by
  have counted : s.uncounted (fun _ => 1) = 0 := fills.uncounted.trans done
  have none_open : openTasks h r.numbers slots = [] := by
    have left := fills.unwritten fun _ => 1
    have bound := s.unwritten_le_uncounted fun _ => 1
    simp only [List.map_const', List.sum_replicate_nat, Nat.mul_one] at left
    exact List.eq_nil_of_length_eq_zero (by omega)
  obtain ⟨results, rfl⟩ := results_of_openTasks fills.slots_length none_open
  have written : (s.writesTo h).Perm (slotWrites h r.numbers results) := by
    rw [← filledWrites_full]
    exact fills.written
  refine ⟨results, fills.length, ?_, written, .inl ⟨fills.stored, untaken⟩⟩
  refine forall₂_slotWrites (h := h) (by simpa using fills.slots_length) ?_
  intro w hw
  exact fetched w (List.mem_filter.mp (written.mem_iff.mpr hw)).1

end Fills

end FanState

end ChainIndex
