import Mathlib.Data.List.Induction
import ChainIndex.Proofs.Work.SlotCache

/-!
# Any calls on a cache

What a handle reads is a matter of the calls since its array was allocated.  The array is there
until the first of them that frees it.  Until then each slot has the first value that they wrote
into it.

`SlotCache.Effect` is all that a call may do to a cache.  For one key that comes to two laws: an
array that is there keeps its generation and fills up until it is freed (`SlotCache.answer_held`),
and a free key gets an array by an allocation only, of a generation that no handle has yet
(`SlotCache.answer_free`).
-/

namespace ChainIndex

variable {α : Type}

/-! ## Calls -/

/-- A call on a cache. -/
inductive SlotCall (α : Type) where
  | allocate (key : String) (length : Nat)
  | handle (key : String)
  | setItem (k : SlotHandle) (index : Nat) (value : α)
  | filled (k : SlotHandle)
  | getArray (k : SlotHandle)
  | takeArray (k : SlotHandle)
  | delete (key : String)
  | getObject (key : String)
  | setObject (key : String) (value : α)
  | deleteObject (key : String)

/-- What a caller is told. -/
inductive SlotAnswer (α : Type) where
  /-- The handle of an array, where there is one. -/
  | handle (k : Option SlotHandle)
  /-- A slot was written. -/
  | written
  /-- The count of written slots. -/
  | count (n : Nat)
  /-- The slots of an array. -/
  | slots (slots : List (Option α))
  /-- Whether a key was allocated. -/
  | deleted (there : Bool)
  /-- A single value. -/
  | object (value : Option α)
  /-- The call failed. -/
  | fault (fault : SlotFault)

namespace SlotCache

/-- The answer to a call, and the cache after it.  A call that fails leaves the cache. -/
def answer (c : SlotCache α) : SlotCall α → SlotAnswer α × SlotCache α
  | .allocate key length =>
    match c.allocate key length with
    | .ok (k, c) => (.handle (some k), c)
    | .error fault => (.fault fault, c)
  | .handle key => (.handle (c.handle? key), c)
  | .setItem k index value =>
    match c.setItem k index value with
    | .ok c => (.written, c)
    | .error fault => (.fault fault, c)
  | .filled k =>
    match c.filled k with
    | .ok n => (.count n, c)
    | .error fault => (.fault fault, c)
  | .getArray k =>
    match c.getArray k with
    | .ok slots => (.slots slots, c)
    | .error fault => (.fault fault, c)
  | .takeArray k =>
    match c.takeArray k with
    | .ok (slots, c) => (.slots slots, c)
    | .error fault => (.fault fault, c)
  | .delete key => (.deleted (c.delete key).1, (c.delete key).2)
  | .getObject key => (.object (c.getObject key), c)
  | .setObject key value => (.object (c.setObject key value).1, (c.setObject key value).2)
  | .deleteObject key => (.object (c.deleteObject key).1, (c.deleteObject key).2)

/-- A cache after calls. -/
def after (c : SlotCache α) (calls : List (SlotCall α)) : SlotCache α :=
  calls.foldl (fun c call => (c.answer call).2) c

end SlotCache

namespace SlotCall

open SlotCache (SameArray)

/-- The handle that a call goes through. -/
def through? : SlotCall α → Option SlotHandle
  | .setItem k _ _ | .filled k | .getArray k | .takeArray k => some k
  | _ => none

/-- The key of the array that a call is about. -/
def arrayKey? : SlotCall α → Option String
  | .allocate key _ | .handle key | .delete key => some key
  | call => call.through?.map (·.key)

/-- A call frees the array of a handle, where it is there. -/
def Frees (h : SlotHandle) : SlotCall α → Prop
  | .takeArray k => SameArray h k
  | .delete key => key = h.key
  | _ => False

instance (h : SlotHandle) : DecidablePred (Frees h : SlotCall α → Prop)
  | .takeArray k => inferInstanceAs (Decidable (SameArray h k))
  | .delete key => inferInstanceAs (Decidable (key = h.key))
  | .allocate .. | .handle _ | .setItem .. | .filled _ | .getArray _ | .getObject _
  | .setObject .. | .deleteObject _ => inferInstanceAs (Decidable False)

/-- The value that a call brings for a slot of the array of a handle. -/
def writes? (h : SlotHandle) (index : Nat) : SlotCall α → Option α
  | .setItem k i value => if SameArray h k ∧ i = index then some value else none
  | _ => none

theorem Frees.key {h : SlotHandle} {call : SlotCall α} (frees : call.Frees h) :
    call.arrayKey? = some h.key := by
  cases call with
  | takeArray k => exact congrArg some frees.1
  | delete key => exact congrArg some frees
  | _ => cases frees

theorem writes?_other {h : SlotHandle} {call : SlotCall α} (other : call.arrayKey? ≠ some h.key)
    (index : Nat) : call.writes? h index = none := by
  cases call with
  | setItem k i value => exact if_neg fun there => other (congrArg some there.1.1)
  | _ => rfl

/-- What a call through a handle is told by an array that holds these slots. -/
def told (slots : List (Option α)) : SlotCall α → SlotAnswer α
  | .setItem k index _ =>
    match slots[index]? with
    | none => .fault (.outOfBounds k.key index slots.length)
    | some (some _) => .fault (.slotTaken k.key index)
    | some none => .written
  | .filled _ => .count (slots.countP Option.isSome)
  | _ => .slots slots

end SlotCall

/-- Slots, with a value in those that are empty and get one. -/
def fill (slots : List (Option α)) (values : Nat → Option α) : List (Option α) :=
  slots.mapIdx fun i slot => slot.or (values i)

@[simp] theorem fill_none (slots : List (Option α)) : fill slots (fun _ => none) = slots := by
  simp [fill, List.mapIdx_eq_iff]

theorem fill_fill (slots : List (Option α)) (first second : Nat → Option α) :
    fill (fill slots first) second = fill slots fun i => (first i).or (second i) := by
  simp only [fill, List.mapIdx_mapIdx, Function.comp_def, Option.or_assoc]

theorem fill_empty {slots : List (Option α)} {index : Nat} (empty : slots[index]? = some none)
    (value : α) : fill slots (fun i => if index = i then some value else none) =
      slots.set index (some value) := by
  refine List.ext_getElem? fun i => ?_
  rw [fill, List.getElem?_mapIdx, List.getElem?_set]
  by_cases same : index = i
  · subst same
    obtain ⟨inside, slot⟩ := List.getElem?_eq_some_iff.mp empty
    simp [inside, slot]
  · simp [same]

theorem fill_taken {slots : List (Option α)} {index : Nat} (taken : slots[index]? ≠ some none)
    (value : α) : fill slots (fun i => if index = i then some value else none) = slots := by
  refine List.ext_getElem? fun i => ?_
  rw [fill, List.getElem?_mapIdx]
  by_cases same : index = i
  · subst same
    cases slot : slots[index]? with
    | none => rfl
    | some old =>
      cases old with
      | none => exact absurd slot taken
      | some old => rfl
  · simp [same]

namespace SlotCache

variable {c c' : SlotCache α} {h k : SlotHandle} {slots : List (Option α)}

/-! ## What a call does -/

theorem setItem_entry {index : Nat} {value : α} (done : c.setItem k index value = .ok c') :
    ∃ a, c.lookup k = .ok a ∧ a.slots[index]? = some none ∧
      c' = { c with arrays :=
        (k.key, ⟨a.generation, a.slots.set index (some value)⟩) :: erase c.arrays k.key } := by
  rw [setItem] at done
  cases looked : c.lookup k with
  | error fault =>
    rw [looked] at done
    cases done
  | ok a =>
    rw [looked] at done
    simp only [bind, Except.bind] at done
    split at done
    case h_1 => cases done
    case h_2 => cases done
    case h_3 empty =>
      cases done
      exact ⟨a, rfl, empty, rfl⟩

/-- A call that fails leaves the cache. -/
theorem answer_fault {call : SlotCall α} {fault : SlotFault}
    (failed : (c.answer call).1 = .fault fault) : (c.answer call).2 = c := by
  cases call with
  | handle | delete | getObject | setObject | deleteObject => cases failed
  | allocate | setItem | filled | getArray | takeArray =>
    rw [answer] at failed ⊢
    split at failed
    case h_1 => cases failed
    case h_2 => rfl

/-- What a call may do to a cache. -/
inductive Effect (c : SlotCache α) (call : SlotCall α) : SlotCache α → Prop
  | none : Effect c call c
  | single (objects : List (String × α)) : Effect c call { c with objects := objects }
  | allocate {key : String} (own : call.arrayKey? = some key) (a : SlotArray α) :
      Effect c call { c with
        arrays := (key, a) :: c.arrays
        nextGeneration := c.nextGeneration + 1 }
  | write {key : String} (own : call.arrayKey? = some key) (a : SlotArray α) :
      Effect c call { c with arrays := (key, a) :: erase c.arrays key }
  | free {key : String} (own : call.arrayKey? = some key) :
      Effect c call { c with arrays := erase c.arrays key }

theorem answer_effect (c : SlotCache α) (call : SlotCall α) : Effect c call (c.answer call).2 := by
  cases call with
  | handle | getObject => exact .none
  | setObject | deleteObject => exact .single _
  | delete key => exact .free rfl
  | filled | getArray =>
    rw [answer]
    split
    · exact .none
    · exact .none
  | allocate key length =>
    rw [answer]
    split
    case h_1 done =>
      obtain ⟨_, _, rfl⟩ := allocate_entry done
      exact .allocate rfl _
    case h_2 => exact .none
  | setItem k index value =>
    rw [answer]
    split
    case h_1 done =>
      obtain ⟨a, _, _, rfl⟩ := setItem_entry done
      exact .write rfl _
    case h_2 => exact .none
  | takeArray k =>
    rw [answer]
    split
    case h_1 done =>
      obtain ⟨a, _, _, rfl⟩ := takeArray_entry done
      exact .free rfl
    case h_2 => exact .none

/-- A call changes nothing under another key than its own, and on single values nothing at all. -/
theorem Effect.other {call : SlotCall α} {key : String} (effect : Effect c call c')
    (other : call.arrayKey? ≠ some key) : find? c'.arrays key = find? c.arrays key := by
  have differs : ∀ {own}, call.arrayKey? = some own → own ≠ key := by
    rintro own mine rfl
    exact other mine
  cases effect with
  | none | single => rfl
  | allocate own => rw [find?_cons, if_neg (differs own)]
  | write own => rw [find?_cons, if_neg (differs own), find?_erase, if_neg (differs own).symm]
  | free own => rw [find?_erase, if_neg (differs own).symm]

theorem Effect.nextGeneration {call : SlotCall α} (effect : Effect c call c') :
    c.nextGeneration ≤ c'.nextGeneration := by
  cases effect with
  | none | single | write | free => exact Nat.le_refl _
  | allocate => exact Nat.le_succ _

/-- A handle of a key whose array is there finds that array, or is stale. -/
theorem lookup_held (held : find? c.arrays h.key = some ⟨h.generation, slots⟩)
    (key : k.key = h.key) : c.lookup k =
      if SameArray h k then .ok ⟨h.generation, slots⟩
      else .error (.staleHandle h.key k.generation) := by
  rw [lookup, key, held]
  by_cases same : k.generation = h.generation
  · simp [SameArray, key, same]
  · simp [SameArray, same, Ne.symm same]

/-- What calls through a handle of the array are told while it is there. -/
theorem answer_through (held : find? c.arrays h.key = some ⟨h.generation, slots⟩)
    {call : SlotCall α} (through : call.through? = some k) (same : SameArray h k) :
    (c.answer call).1 = call.told slots := by
  have looked := lookup_held held same.1
  rw [if_pos same] at looked
  cases call with
  | setItem k' index value =>
    cases through
    simp only [answer, setItem, looked, bind, Except.bind, SlotCall.told]
    cases slots[index]? with
    | none => rfl
    | some slot =>
      cases slot with
      | none => rfl
      | some old => rfl
  | filled | getArray | takeArray =>
    cases through
    simp [answer, filled, getArray, takeArray, looked, Except.map, SlotCall.told, SlotArray.filled]
  | _ => cases through

theorem find?_setItem (held : find? c.arrays h.key = some ⟨h.generation, slots⟩)
    (key : k.key = h.key) (index : Nat) (value : α) :
    find? (c.answer (.setItem k index value)).2.arrays h.key =
      some ⟨h.generation, fill slots ((SlotCall.setItem k index value).writes? h ·)⟩ := by
  have looked := lookup_held held key
  by_cases same : SameArray h k
  · rw [if_pos same] at looked
    simp only [answer, setItem, looked, SlotCall.writes?, same, true_and, bind, Except.bind]
    by_cases empty : slots[index]? = some none
    · rw [fill_empty empty]
      simp [empty, find?_cons, key, pure, Except.pure]
    · rw [fill_taken empty]
      cases slot : slots[index]? with
      | none => exact held
      | some old =>
        cases old with
        | none => exact absurd slot empty
        | some old => exact held
  · rw [if_neg same] at looked
    simpa [answer, setItem, looked, SlotCall.writes?, same, bind, Except.bind] using held

theorem find?_takeArray (held : find? c.arrays h.key = some ⟨h.generation, slots⟩)
    (key : k.key = h.key) : find? (c.answer (.takeArray k)).2.arrays h.key =
      if SameArray h k then none else some ⟨h.generation, slots⟩ := by
  have looked := lookup_held held key
  by_cases same : SameArray h k
  · rw [if_pos same] at looked
    simp [answer, takeArray, looked, same, Except.map, find?_erase, key]
  · rw [if_neg same] at looked
    simpa [answer, takeArray, looked, same, Except.map] using held

/-- A call leaves an array under its key and fills some of its slots, or it frees the key. -/
theorem answer_held (held : find? c.arrays h.key = some ⟨h.generation, slots⟩) (call : SlotCall α) :
    find? (c.answer call).2.arrays h.key =
      if call.Frees h then none else some ⟨h.generation, fill slots (call.writes? h ·)⟩ := by
  by_cases mine : call.arrayKey? = some h.key
  case neg =>
    rw [(answer_effect c call).other mine, if_neg fun frees => mine frees.key]
    simp only [SlotCall.writes?_other mine, fill_none, held]
  case pos =>
    cases call with
    | getObject | setObject | deleteObject => cases mine
    | handle key => simpa [SlotCall.Frees, SlotCall.writes?, answer] using held
    | filled k | getArray k =>
      rw [answer]
      split
      · simpa [SlotCall.Frees, SlotCall.writes?] using held
      · simpa [SlotCall.Frees, SlotCall.writes?] using held
    | allocate key length =>
      cases mine
      simp [answer, allocate, SlotCall.Frees, SlotCall.writes?, held]
    | delete key =>
      cases mine
      simp [answer, delete, find?_erase, SlotCall.Frees]
    | takeArray k =>
      rw [find?_takeArray held (Option.some.inj mine)]
      simp only [SlotCall.Frees, SlotCall.writes?, fill_none]
    | setItem k index value =>
      rw [find?_setItem held (Option.some.inj mine)]
      exact (if_neg not_false).symm

theorem lookup_free (free : find? c.arrays k.key = none) :
    c.lookup k = .error (.missing k.key) := by
  rw [lookup, free]

/-- Only an allocation puts an array under a free key. -/
theorem answer_free {key : String} (free : find? c.arrays key = none) {call : SlotCall α}
    {a : SlotArray α} (there : find? (c.answer call).2.arrays key = some a) :
    ∃ length, call = .allocate key length ∧ a = ⟨c.nextGeneration, List.replicate length none⟩ := by
  by_cases mine : call.arrayKey? = some key
  case neg =>
    rw [(answer_effect c call).other mine, free] at there
    cases there
  case pos =>
    cases call with
    | getObject | setObject | deleteObject => cases mine
    | handle own => simp [answer, free] at there
    | delete own =>
      cases mine
      simp [answer, delete, find?_erase] at there
    | allocate own length =>
      cases mine
      simp only [answer, allocate, free, find?_cons, if_true, Option.some.injEq] at there
      exact ⟨length, rfl, there.symm⟩
    | setItem k | filled k | getArray k | takeArray k =>
      cases mine
      simp [answer, setItem, filled, getArray, takeArray, lookup_free free, free, Except.map, bind,
        Except.bind] at there

/-! ## Freed handles -/

/-- No array of the generation of a handle will be there under its key again. -/
def Gone (c : SlotCache α) (h : SlotHandle) : Prop :=
  h.generation < c.nextGeneration ∧ ∀ a, find? c.arrays h.key = some a → h.generation < a.generation

theorem Gone.answer (gone : c.Gone h) (call : SlotCall α) : (c.answer call).2.Gone h := by
  refine ⟨Nat.lt_of_lt_of_le gone.1 (answer_effect c call).nextGeneration, ?_⟩
  intro a there
  cases held : find? c.arrays h.key with
  | none =>
    obtain ⟨length, _, rfl⟩ := answer_free held there
    exact gone.1
  | some old =>
    have next := answer_held (h := ⟨h.key, old.generation, 0⟩) held call
    rw [there] at next
    split at next
    · cases next
    · cases next
      exact gone.2 old held

theorem Gone.after (gone : c.Gone h) (calls : List (SlotCall α)) : (c.after calls).Gone h := by
  induction calls generalizing c with
  | nil => exact gone
  | cons call rest ih => exact ih (gone.answer call)

/-- A call through a handle whose array is gone is told so, and leaves the cache. -/
theorem Gone.through (gone : c.Gone h) {call : SlotCall α} (through : call.through? = some k)
    (same : SameArray h k) : (c.answer call).2 = c ∧
      (c.handle? h.key = none ∧ (c.answer call).1 = .fault (.missing h.key) ∨
        ∃ newer, c.handle? h.key = some newer ∧ h.generation < newer.generation ∧
          (c.answer call).1 = .fault (.staleHandle h.key h.generation)) := by
  have failed : ∀ fault, c.lookup k = .error fault → (c.answer call).1 = .fault fault := by
    intro fault looked
    cases call with
    | setItem | filled | getArray | takeArray =>
      cases through
      simp [SlotCache.answer, setItem, filled, getArray, takeArray, looked, Except.map, bind,
        Except.bind]
    | _ => cases through
  cases there : find? c.arrays h.key with
  | none =>
    rw [← same.1] at there
    have told := failed _ (lookup_free there)
    refine ⟨answer_fault told, .inl ⟨?_, same.1 ▸ told⟩⟩
    rw [handle?, ← same.1, there]
    rfl
  | some a =>
    have newer := gone.2 a there
    have other : ¬SameArray ⟨h.key, a.generation, 0⟩ k := by
      intro again
      exact Nat.ne_of_lt newer (same.2.symm.trans again.2)
    have looked := lookup_held (h := ⟨h.key, a.generation, 0⟩) there (k := k) same.1
    rw [if_neg other] at looked
    have told := failed _ looked
    refine ⟨answer_fault told,
      .inr ⟨⟨h.key, a.generation, a.slots.length⟩, ?_, newer, same.2 ▸ told⟩⟩
    rw [handle?, there]
    rfl

/-! ## Runs of calls -/

/-- No call has freed the array of a handle. -/
def Kept (h : SlotHandle) (calls : List (SlotCall α)) : Prop := ∀ call ∈ calls, ¬call.Frees h

instance (h : SlotHandle) (calls : List (SlotCall α)) : Decidable (Kept h calls) :=
  inferInstanceAs (Decidable (∀ call ∈ calls, ¬call.Frees h))

/-- The slots of an array when each has the first value that calls brought for it. -/
def firstWrites (h : SlotHandle) (calls : List (SlotCall α)) : List (Option α) :=
  (List.range h.length).map fun i => calls.findSome? (·.writes? h i)

theorem after_held (held : find? c.arrays h.key = some ⟨h.generation, slots⟩)
    {calls : List (SlotCall α)} (kept : Kept h calls) :
    find? (c.after calls).arrays h.key =
      some ⟨h.generation, fill slots fun i => calls.findSome? (·.writes? h i)⟩ := by
  induction calls generalizing c slots with
  | nil => simpa [after] using held
  | cons call rest ih =>
    have next := answer_held held call
    rw [if_neg (kept call List.mem_cons_self)] at next
    have last := ih next fun call there => kept call (List.mem_cons_of_mem _ there)
    rw [fill_fill] at last
    refine last.trans ?_
    congr 3
    funext i
    rw [List.findSome?_cons]
    cases call.writes? h i with
    | none => rfl
    | some value => rfl

theorem after_freed (held : find? c.arrays h.key = some ⟨h.generation, slots⟩)
    (older : h.generation < c.nextGeneration) {calls : List (SlotCall α)} (freed : ¬Kept h calls) :
    (c.after calls).Gone h := by
  induction calls generalizing c slots with
  | nil => exact absurd (fun _ there => nomatch there) freed
  | cons call rest ih =>
    have next := answer_held held call
    have older := Nat.lt_of_lt_of_le older (answer_effect c call).nextGeneration
    by_cases frees : call.Frees h
    · rw [if_pos frees] at next
      refine Gone.after ⟨older, fun a there => ?_⟩ rest
      rw [next] at there
      cases there
    · rw [if_neg frees] at next
      refine ih next older fun kept => freed fun call there => ?_
      rcases List.mem_cons.mp there with rfl | there
      · exact frees
      · exact kept call there

/-! ## Allocations -/

/-- A cache after calls, from the empty one. -/
def history (calls : List (SlotCall α)) : SlotCache α := ({} : SlotCache α).after calls

theorem history_concat (calls : List (SlotCall α)) (call : SlotCall α) :
    history (calls ++ [call]) = ((history calls).answer call).2 := List.foldl_append

/-- A handle was given out by an allocation, and these calls came since. -/
def Issued (calls : List (SlotCall α)) (h : SlotHandle) (since : List (SlotCall α)) : Prop :=
  ∃ before, calls = before ++ .allocate h.key h.length :: since ∧
    ((history before).answer (.allocate h.key h.length)).1 = .handle (some h)

theorem Issued.concat {calls since : List (SlotCall α)} (issued : Issued calls h since)
    (call : SlotCall α) : Issued (calls ++ [call]) h (since ++ [call]) := by
  obtain ⟨before, rfl, done⟩ := issued
  exact ⟨before, by simp, done⟩

/-- An allocation leaves empty slots under its key. -/
theorem Issued.start {calls since : List (SlotCall α)} (issued : Issued calls h since) :
    ∃ c : SlotCache α, history calls = c.after since ∧ h.generation < c.nextGeneration ∧
      find? c.arrays h.key = some ⟨h.generation, List.replicate h.length none⟩ := by
  obtain ⟨before, rfl, told⟩ := issued
  refine ⟨((history before).answer (.allocate h.key h.length)).2, List.foldl_append, ?_⟩
  rw [answer] at told ⊢
  split at told
  case h_2 => cases told
  case h_1 done =>
    cases told
    obtain ⟨_, generation, rfl⟩ := allocate_entry done
    rw [congrArg SlotHandle.generation generation]
    exact ⟨Nat.lt_succ_self _, (find?_cons ..).trans (if_pos rfl)⟩

/-- While no call has freed it, an array has what was first written. -/
theorem Issued.held {calls since : List (SlotCall α)} (issued : Issued calls h since)
    (kept : Kept h since) :
    find? (history calls).arrays h.key = some ⟨h.generation, firstWrites h since⟩ := by
  obtain ⟨c, run, _, start⟩ := issued.start
  rw [run, after_held start kept, fill, firstWrites]
  congr 2
  refine List.ext_getElem? fun i => ?_
  by_cases inside : i < h.length
  · simp [inside]
  · simp [inside]

theorem Issued.gone {calls since : List (SlotCall α)} (issued : Issued calls h since)
    (freed : ¬Kept h since) : (history calls).Gone h := by
  obtain ⟨c, run, older, start⟩ := issued.start
  exact run ▸ after_freed start older freed

/-- An array is there only where an allocation made it and no call has freed it since. -/
theorem issued_of_entry {calls : List (SlotCall α)} {key : String} {a : SlotArray α}
    (there : find? (history calls).arrays key = some a) :
    ∃ since, Issued calls ⟨key, a.generation, a.slots.length⟩ since ∧
      Kept ⟨key, a.generation, a.slots.length⟩ since := by
  induction calls using List.reverseRecOn generalizing a with
  | nil => cases there
  | append_singleton calls call ih =>
    rw [history_concat] at there
    cases held : find? (history calls).arrays key with
    | none =>
      obtain ⟨length, rfl, rfl⟩ := answer_free held there
      refine ⟨[], ⟨calls, by simp, ?_⟩, fun _ there => nomatch there⟩
      simp [answer, allocate, held]
    | some old =>
      obtain ⟨since, issued, kept⟩ := ih held
      have next := answer_held (h := ⟨key, old.generation, old.slots.length⟩) held call
      rw [there] at next
      split at next
      case isTrue => cases next
      case isFalse frees =>
        cases next
        refine ⟨since ++ [call], by simpa [fill] using issued.concat call, ?_⟩
        intro other there
        rcases List.mem_append.mp there with there | there
        · simpa [fill] using kept other there
        · rw [List.mem_singleton.mp there]
          simpa [fill] using frees

/-- The handle of a key is the one whose array has not been freed. -/
theorem handle?_history {calls : List (SlotCall α)} {key : String} :
    (history calls).handle? key = some k ↔
      k.key = key ∧ ∃ since, Issued calls k since ∧ Kept k since := by
  rw [handle?, Option.map_eq_some_iff]
  constructor
  · rintro ⟨a, there, rfl⟩
    exact ⟨rfl, issued_of_entry there⟩
  · rintro ⟨rfl, since, issued, kept⟩
    refine ⟨_, issued.held kept, ?_⟩
    simp [firstWrites]

end SlotCache

open SlotCache

/-- A cache stands for a map from allocations to arrays that are written once.  Whatever calls come
after an allocation, its handle works if and only if none of them has freed its array.  While it
works, its array has in each slot the first value that those calls brought for the slot, and calls
through it are told so: a taken array is exactly that, and its key is free again.  Once it does not
work, it is missing while its key is free and stale once the key is allocated again, and no call
through it changes anything.  The handle of a key is that of its allocation which has not been freed.
A call that fails leaves the cache, and a call under another key or on single values leaves the
array. -/
theorem handle_follows_allocation {calls since : List (SlotCall α)} {h : SlotHandle}
    (issued : Issued calls h since) :
    ((∃ slots, (history calls).getArray h = .ok slots) ↔ Kept h since) ∧
    (Kept h since →
      (∀ call k, call.through? = some k → SameArray h k →
        ((history calls).answer call).1 = call.told (firstWrites h since)) ∧
      (∀ length, ((history calls).answer (.allocate h.key length)).1 =
        .fault (.alreadyAllocated h.key)) ∧
      ((history calls).answer (.takeArray h)).2.handle? h.key = none) ∧
    (¬Kept h since → ∀ call k, call.through? = some k → SameArray h k →
      ((history calls).answer call).2 = history calls ∧
      ((history calls).handle? h.key = none ∧
          ((history calls).answer call).1 = .fault (.missing h.key) ∨
        ∃ newer, (history calls).handle? h.key = some newer ∧ h.generation < newer.generation ∧
          ((history calls).answer call).1 = .fault (.staleHandle h.key h.generation))) ∧
    (∀ k, (history calls).handle? h.key = some k ↔
      k.key = h.key ∧ ∃ since, Issued calls k since ∧ Kept k since) ∧
    (∀ call fault, ((history calls).answer call).1 = .fault fault →
      ((history calls).answer call).2 = history calls) ∧
    ∀ call, call.arrayKey? ≠ some h.key →
      find? ((history calls).answer call).2.arrays h.key = find? (history calls).arrays h.key := by
  refine ⟨⟨?_, ?_⟩, fun kept => ⟨?_, ?_, ?_⟩, ?_, fun _ => handle?_history,
    fun _ _ => answer_fault, fun call => (answer_effect _ call).other⟩
  · rintro ⟨slots, read⟩
    by_contra freed
    have through : (SlotCall.getArray h : SlotCall α).through? = some h := rfl
    rcases ((issued.gone freed).through through ⟨rfl, rfl⟩).2 with ⟨_, told⟩ | ⟨_, _, _, told⟩
    · simp [answer, read] at told
    · simp [answer, read] at told
  · intro kept
    refine ⟨firstWrites h since, ?_⟩
    rw [getArray, lookup_held (issued.held kept) rfl, if_pos ⟨rfl, rfl⟩]
    rfl
  · intro call k
    exact answer_through (issued.held kept)
  · intro length
    simp [answer, allocate, issued.held kept]
  · rw [handle?, find?_takeArray (issued.held kept) rfl, if_pos ⟨rfl, rfl⟩]
    rfl
  · intro freed call k
    exact (issued.gone freed).through

/-- Two writes into one slot, and the key freed and allocated again behind them. -/
theorem handle_follows_allocation_of_reallocation :
    let h : SlotHandle := ⟨"req", 1, 2⟩
    let writes : List (SlotCall Nat) := [.setItem h 1 7, .setItem h 1 8]
    let calls : List (SlotCall Nat) := .allocate "req" 2 :: writes
    ((history calls).answer (.takeArray h)).1 = .slots [none, some 7] ∧
    ((history (calls ++ [.delete "req", .allocate "req" 1])).answer (.takeArray h)).1 =
      .fault (.staleHandle "req" 1) := by
  intro h writes calls
  have first : Issued calls h writes := ⟨[], rfl, rfl⟩
  have second : Issued (calls ++ [.delete "req", .allocate "req" 1]) h
      (writes ++ [.delete "req", .allocate "req" 1]) := ⟨[], rfl, rfl⟩
  refine ⟨?_, ?_⟩
  · exact ((handle_follows_allocation first).2.1 (by decide)).1 _ h rfl ⟨rfl, rfl⟩
  · rcases ((handle_follows_allocation second).2.2.1 (by decide) (.takeArray h) h rfl
        ⟨rfl, rfl⟩).2 with ⟨free, _⟩ | ⟨newer, _, _, told⟩
    · cases free
    · exact told

end ChainIndex
