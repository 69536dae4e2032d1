import Mathlib.Data.List.Nodup
import Mathlib.Data.List.Perm.Basic
import ChainIndex.SlotCache

/-!
# Entries under keys

Arrays, barriers, workers and requests stand in lists, each under a key that no other has.
-/

namespace ChainIndex

/-- A list without the element of a key has lost that element only, where no key stands twice. -/
theorem perm_cons_filter {β κ : Type} [DecidableEq κ] (key : β → κ) {list : List β} {x : β}
    (h : x ∈ list) (distinct : (list.map key).Nodup) :
    list.Perm (x :: list.filter fun y => key y ≠ key x) := by
  induction list with
  | nil => cases h
  | cons y rest ih =>
    obtain ⟨first, distinct⟩ := List.nodup_cons.mp distinct
    rcases List.mem_cons.mp h with rfl | h
    · have others : rest.filter (fun y => key y ≠ key x) = rest := by
        refine List.filter_eq_self.mpr ?_
        intro y hy
        have other : key y ≠ key x := fun same => first (List.mem_map.mpr ⟨y, hy, same⟩)
        simpa using other
      rw [List.filter_cons_of_neg (by simp), others]
    · have other : key y ≠ key x := fun same => first (List.mem_map.mpr ⟨x, h, same.symm⟩)
      rw [List.filter_cons_of_pos (by simpa using other)]
      exact ((ih h distinct).cons y).trans (.swap _ _ _)

namespace SlotCache

variable {β : Type} (entries : List (String × β)) (key other : String)

theorem find?_cons (value : β) :
    find? ((key, value) :: entries) other = if key = other then some value else find? entries other := by
  by_cases same : key = other
  · simp [find?, same]
  · simp [find?, same]

theorem find?_erase :
    find? (erase entries key) other = if other = key then none else find? entries other := by
  induction entries with
  | nil => simp [find?, erase]
  | cons e rest ih =>
    obtain ⟨k, value⟩ := e
    by_cases gone : k = key
    · have erased : erase ((k, value) :: rest) key = erase rest key := by simp [erase, gone]
      rw [erased, ih, find?_cons, gone]
      by_cases same : other = key
      · simp [same]
      · simp [same, Ne.symm same]
    · have kept : erase ((k, value) :: rest) key = (k, value) :: erase rest key := by
        simp [erase, gone]
      rw [kept, find?_cons, find?_cons, ih]
      by_cases same : k = other
      · simp [same, same ▸ gone]
      · simp [same]

theorem find?_eq_none : find? entries key = none ↔ key ∉ entries.map (·.1) := by
  induction entries with
  | nil => simp [find?]
  | cons e rest ih =>
    obtain ⟨k, value⟩ := e
    rw [find?_cons]
    by_cases same : k = key
    · simp [same]
    · simpa [same, Ne.symm same] using ih

/-- An entry is found that was added under a free key, and what else was found is found. -/
theorem find?_concat (value : β) (free : find? entries key = none) :
    find? (entries ++ [(key, value)]) other = if other = key then some value else find? entries other := by
  induction entries with
  | nil =>
    rw [List.nil_append, find?_cons]
    by_cases same : other = key
    · simp [same]
    · simp [same, Ne.symm same]
  | cons e rest ih =>
    obtain ⟨k, first⟩ := e
    rw [find?_cons] at free
    split at free
    case isTrue => cases free
    case isFalse different =>
      rw [List.cons_append, find?_cons, find?_cons, ih free]
      by_cases same : k = other
      · simp [same, same ▸ different]
      · simp [same]

theorem find?_change (f : β → β) :
    find? (entries.map fun e => if e.1 == key then (e.1, f e.2) else e) other =
      if other = key then (find? entries other).map f else find? entries other := by
  induction entries with
  | nil => simp [find?]
  | cons e rest ih =>
    obtain ⟨k, value⟩ := e
    by_cases changed : k = key
    · rw [List.map_cons, if_pos (by simpa using changed), find?_cons, find?_cons, ih, changed]
      by_cases same : other = key
      · simp [same]
      · simp [same, Ne.symm same]
    · rw [List.map_cons, if_neg (by simpa using changed), find?_cons, find?_cons, ih]
      by_cases same : k = other
      · simp [same, same ▸ changed]
      · simp [same]

end SlotCache

end ChainIndex
