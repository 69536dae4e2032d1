import ChainIndex.Proofs.Work.Keyed

/-!
# What a handle reads

`slots?` is what a cache holds under a handle.  Each operation changes that for one allocation
only: the one that it makes, writes, or takes.
-/

namespace ChainIndex.SlotCache

variable {α : Type} {c c' : SlotCache α} {h k : SlotHandle}

/-- The slots under a handle, where it names an array that is still there. -/
def slots? (c : SlotCache α) (h : SlotHandle) : Option (List (Option α)) := (c.getArray h).toOption

/-- Two handles name one allocation. -/
def SameArray (h k : SlotHandle) : Prop := k.key = h.key ∧ k.generation = h.generation

instance (h k : SlotHandle) : Decidable (SameArray h k) := inferInstanceAs (Decidable (_ ∧ _))

theorem slots?_eq (c : SlotCache α) (h : SlotHandle) :
    c.slots? h = (find? c.arrays h.key).bind fun a =>
      if a.generation = h.generation then some a.slots else none := by
  rw [slots?, getArray, lookup]
  cases find? c.arrays h.key with
  | none => rfl
  | some a =>
    by_cases same : a.generation = h.generation
    · simp [same, Except.map, Except.toOption]
    · simp [same, Except.map, Except.toOption]

theorem lookup_of_slots {slots : List (Option α)} (found : c.slots? h = some slots) :
    ∃ a, find? c.arrays h.key = some a ∧ a.generation = h.generation ∧ a.slots = slots ∧
      c.lookup h = .ok a := by
  rw [slots?_eq, Option.bind_eq_some_iff] at found
  obtain ⟨a, there, found⟩ := found
  split at found
  case isFalse => cases found
  case isTrue same =>
    refine ⟨a, there, same, Option.some.inj found, ?_⟩
    rw [lookup, there]
    exact if_pos same

/-- Handles that read an array under one key name one allocation. -/
theorem sameArray_of_key {slots slots' : List (Option α)} (found : c.slots? h = some slots)
    (found' : c.slots? k = some slots') (same : k.key = h.key) : SameArray h k := by
  obtain ⟨a, there, generation, _⟩ := lookup_of_slots found
  obtain ⟨a', there', generation', _⟩ := lookup_of_slots found'
  rw [same, there, Option.some.injEq] at there'
  exact ⟨same, by rw [← generation, ← generation', there']⟩

theorem allocate_entry {key : String} {length : Nat} (done : c.allocate key length = .ok (k, c')) :
    find? c.arrays key = none ∧ k = ⟨key, c.nextGeneration, length⟩ ∧
      c' = { c with
        arrays := (key, ⟨c.nextGeneration, List.replicate length none⟩) :: c.arrays
        nextGeneration := c.nextGeneration + 1 } := by
  rw [allocate] at done
  split at done
  case h_1 => cases done
  case h_2 free =>
    cases done
    exact ⟨free, rfl, rfl⟩

/-- An allocation makes an array of empty slots, and changes nothing for the handles given out
before it. -/
theorem allocate_ok {key : String} {length : Nat} (done : c.allocate key length = .ok (h, c')) :
    h = ⟨key, c.nextGeneration, length⟩ ∧ c'.nextGeneration = c.nextGeneration + 1 ∧
      c'.slots? h = some (List.replicate length none) ∧
      ∀ k, k.generation < c.nextGeneration → c'.slots? k = c.slots? k := by
  obtain ⟨free, rfl, rfl⟩ := allocate_entry done
  refine ⟨rfl, rfl, by simp [slots?_eq, find?_cons], ?_⟩
  intro k older
  rw [slots?_eq, slots?_eq, find?_cons]
  by_cases same : key = k.key
  · have other : c.nextGeneration ≠ k.generation := by omega
    rw [← same, free]
    simp [other]
  · simp [same]

/-- A slot that is empty is written. -/
theorem setItem_ok {slots : List (Option α)} {index : Nat} (found : c.slots? h = some slots)
    (empty : slots[index]? = some none) (value : α) :
    ∃ c', c.setItem h index value = .ok c' ∧ c'.nextGeneration = c.nextGeneration ∧
      ∀ k, c'.slots? k =
        if SameArray h k then some (slots.set index (some value)) else c.slots? k := by
  obtain ⟨a, there, generation, rfl, looked⟩ := lookup_of_slots found
  let written : SlotArray α := { a with slots := a.slots.set index (some value) }
  refine ⟨{ c with arrays := (h.key, written) :: erase c.arrays h.key }, ?_, rfl, ?_⟩
  · simp [setItem, looked, empty, bind, Except.bind, pure, Except.pure, written]
  · intro k
    rw [slots?_eq, slots?_eq, find?_cons, find?_erase]
    by_cases key : k.key = h.key
    · rw [if_pos key.symm, key, there]
      by_cases same : a.generation = k.generation
      · simp [SameArray, key, same, ← generation, written]
      · simp [SameArray, key, same, ← generation, Ne.symm same, written]
    · simp [SameArray, key, Ne.symm key]

theorem takeArray_entry {slots : List (Option α)} (done : c.takeArray k = .ok (slots, c')) :
    ∃ a, c.lookup k = .ok a ∧ slots = a.slots ∧ c' = { c with arrays := erase c.arrays k.key } := by
  rw [takeArray] at done
  cases looked : c.lookup k with
  | error fault =>
    rw [looked] at done
    cases done
  | ok a =>
    rw [looked] at done
    cases done
    exact ⟨a, rfl, rfl, rfl⟩

/-- An array that is taken is no longer there. -/
theorem takeArray_ok {slots : List (Option α)} (done : c.takeArray h = .ok (slots, c')) :
    c.slots? h = some slots ∧ c'.nextGeneration = c.nextGeneration ∧
      ∀ k, c'.slots? k = if SameArray h k then none else c.slots? k := by
  obtain ⟨a, looked, rfl, rfl⟩ := takeArray_entry done
  have found : c.slots? h = some a.slots := by
    rw [slots?, getArray, looked]
    rfl
  refine ⟨found, rfl, ?_⟩
  intro k
  have other : c.slots? k ≠ none → k.key = h.key → SameArray h k := by
    intro there key
    obtain ⟨slots, found'⟩ := Option.ne_none_iff_exists'.mp there
    exact sameArray_of_key found found' key
  rw [slots?_eq, find?_erase]
  by_cases key : k.key = h.key
  · rw [if_pos key]
    split
    case isTrue => rfl
    case isFalse different =>
      by_cases there : c.slots? k = none
      · rw [there]
        rfl
      · exact absurd (other there key) different
  · rw [if_neg key, ← slots?_eq, if_neg fun same => key same.1]

end ChainIndex.SlotCache
