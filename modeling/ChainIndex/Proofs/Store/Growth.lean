import ChainIndex.Proofs.Store.Lawful

/-!
# How tables grow

A table grows by one row where the key of a row that is put was not there, and keeps its size where
it was.  So new rows with different keys make it grow by their count, and changed rows do not make
it grow at all (`Table.size_insertAll_append`).

A table is determined by what it finds.  So the content of a store in memory says how many rows
its tables have (`MemoryStore.size_of_putBlocks`, `MemoryStore.size_of_putTransactions`).
-/

namespace ChainIndex

namespace Table

variable {κ ρ : Type} [LT κ] [LE κ] [DecidableEq κ] [DecidableLT κ] [Std.IsLinearOrder κ]
  [Std.LawfulOrderLT κ] {keyOf : ρ → κ} {row : ρ} {rows : List ρ}

omit [LE κ] [Std.IsLinearOrder κ] [Std.LawfulOrderLT κ] in
theorem length_place_of_absent (absent : ∀ r ∈ rows, keyOf r ≠ keyOf row) :
    (place keyOf row rows).length = rows.length + 1 := by
  induction rows with
  | nil => rfl
  | cons r rest ih =>
    obtain ⟨other, absent⟩ := List.forall_mem_cons.mp absent
    rw [place, if_neg other]
    split
    case isTrue => rfl
    case isFalse => rw [List.length_cons, List.length_cons, ih absent]

theorem length_place_of_present {found : ρ} (sorted : rows.Pairwise fun a b => keyOf a < keyOf b)
    (hfound : found ∈ rows) (same : keyOf found = keyOf row) :
    (place keyOf row rows).length = rows.length := by
  induction rows with
  | nil => cases hfound
  | cons r rest ih =>
    obtain ⟨below, sorted⟩ := List.pairwise_cons.mp sorted
    rw [place]
    split
    case isTrue => rfl
    case isFalse other =>
      have hrest : found ∈ rest := by
        rcases List.mem_cons.mp hfound with rfl | hrest
        · exact absurd same other
        · exact hrest
      -- the key stands behind the first one, so the row is not put before it
      have behind : ¬ keyOf row < keyOf r := fun before =>
        Std.Irrefl.irrefl (keyOf r) (lt_trans (same ▸ below found hrest) before)
      rw [if_neg behind, List.length_cons, List.length_cons, ih sorted hrest]

theorem size_insert_of_absent {t : Table keyOf} (absent : t.get? (keyOf row) = none) :
    (t.insert row).size = t.size + 1 :=
  length_place_of_absent fun r hr same => by
    have found := mem_rows_iff.mp hr
    rw [same, absent] at found
    cases found

theorem size_insert_of_present {t : Table keyOf} (present : (t.get? (keyOf row)).isSome) :
    (t.insert row).size = t.size := by
  obtain ⟨found, stands⟩ := Option.isSome_iff_exists.mp present
  obtain ⟨hfound, same⟩ := get?_some stands
  exact length_place_of_present t.sorted hfound same

/-- New rows with different keys make a table grow by their count. -/
theorem size_insertAll_of_absent (distinct : (rows.map keyOf).Nodup) :
    ∀ {t : Table keyOf}, (∀ r ∈ rows, t.get? (keyOf r) = none) →
      (t.insertAll rows).size = t.size + rows.length := by
  induction rows with
  | nil => exact fun _ => rfl
  | cons r rest ih =>
    intro t absent
    obtain ⟨here, absent⟩ := List.forall_mem_cons.mp absent
    obtain ⟨fresh, distinct⟩ := List.nodup_cons.mp distinct
    have still : ∀ x ∈ rest, (t.insert r).get? (keyOf x) = none := by
      intro x hx
      have other : keyOf r ≠ keyOf x := fun same => fresh (List.mem_map.mpr ⟨x, hx, same.symm⟩)
      rw [get?_insert, if_neg other, absent x hx]
    have rest := ih distinct still
    rw [size_insert_of_absent here] at rest
    rw [insertAll, List.foldl_cons, ← insertAll, rest, List.length_cons]
    omega

/-- Rows with keys that a table has do not make it grow. -/
theorem size_insertAll_of_present :
    ∀ {t : Table keyOf}, (∀ r ∈ rows, (t.get? (keyOf r)).isSome) →
      (t.insertAll rows).size = t.size := by
  induction rows with
  | nil => exact fun _ => rfl
  | cons r rest ih =>
    intro t present
    obtain ⟨here, present⟩ := List.forall_mem_cons.mp present
    have still : ∀ x ∈ rest, ((t.insert r).get? (keyOf x)).isSome := by
      intro x hx
      rw [get?_insert]
      split
      · rfl
      · exact present x hx
    have rest := ih still
    rwa [size_insert_of_present here] at rest

/-- Rows that are new and rows that are changed make a table grow by the count of the new ones. -/
theorem size_insertAll_append {t : Table keyOf} {new changed : List ρ}
    (distinct : (new.map keyOf).Nodup) (absent : ∀ r ∈ new, t.get? (keyOf r) = none)
    (present : ∀ r ∈ changed, (t.get? (keyOf r)).isSome) :
    (t.insertAll (new ++ changed)).size = t.size + new.length := by
  have still : ∀ r ∈ changed, ((t.insertAll new).get? (keyOf r)).isSome := by
    intro r hr
    rw [get?_insertAll, Option.isSome_or, present r hr, Bool.or_true]
  rw [insertAll, List.foldl_append, ← insertAll, ← insertAll, size_insertAll_of_present still,
    size_insertAll_of_absent distinct absent]

end Table

namespace MemoryStore

variable {m m' : MemoryStore}

theorem blocks_eq_of_view (h : m'.view.block? = m.view.block?) : m'.blocks = m.blocks :=
  Table.ext_get? fun n => congrFun h n

theorem transactions_eq_of_view (h : m'.view.transaction? = m.view.transaction?) :
    m'.transactions = m.transactions := Table.ext_get? fun hash => congrFun h hash

/-- The table of blocks grows by the rows whose number was not stored. -/
theorem size_of_putBlocks {new changed : List BlockRow}
    (left : m'.view.block? = (m.view.putBlocks (new ++ changed)).block?)
    (distinct : (new.map BlockRow.number).Nodup)
    (absent : ∀ row ∈ new, m.view.block? row.number = none)
    (present : ∀ row ∈ changed, (m.view.block? row.number).isSome) :
    m'.blocks.size = m.blocks.size + new.length := by
  have same : m'.blocks = m.blocks.insertAll (new ++ changed) := Table.ext_get? fun n =>
    (congrFun left n).trans (Table.get?_insertAll m.blocks (new ++ changed) n).symm
  rw [same, Table.size_insertAll_append distinct absent present]

/-- The table of transactions grows by the rows whose hash was not stored. -/
theorem size_of_putTransactions {new changed : List TransactionRow}
    (left : m'.view.transaction? = (m.view.putTransactions (new ++ changed)).transaction?)
    (distinct : (new.map TransactionRow.hash).Nodup)
    (absent : ∀ tx ∈ new, m.view.transaction? tx.hash = none)
    (present : ∀ tx ∈ changed, (m.view.transaction? tx.hash).isSome) :
    m'.transactions.size = m.transactions.size + new.length := by
  have same : m'.transactions = m.transactions.insertAll (new ++ changed) := Table.ext_get? fun h =>
    (congrFun left h).trans (Table.get?_insertAll m.transactions (new ++ changed) h).symm
  rw [same, Table.size_insertAll_append distinct absent present]

end MemoryStore

end ChainIndex
