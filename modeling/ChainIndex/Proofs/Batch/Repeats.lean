import ChainIndex.Proofs.Batch.Given

/-!
# Blocks given twice

A list of given blocks may have several blocks for one number.  Each is compared with what was
stored before the list, and not with those before it in the list.  Rows that are stored already are
not written, and of the others the last one stands (`block?_stage_last_of_repeats`).

So the last block of a number stands, except where its row is the stored one and another block came
before it: then the row of that other block is written, and nothing writes the last one again.  A
number where this changes the hash is `Eclipsed`.  Transactions have no such exception: of those
with one hash only the last is compared at all (`transaction?_stage_last`).
-/

namespace ChainIndex

/-- The last of some rows for a number is the stored one, and of the other rows for the number the
last has another hash. -/
def Eclipsed (v : View) (rows : List BlockRow) (n : UInt64) : Prop :=
  ∃ old other, v.block? n = some old ∧ lastWith? BlockRow.number rows n = some old ∧
    lastWith? BlockRow.number (rows.filter (· ≠ old)) n = some other ∧ other.hash ≠ old.hash

namespace Batch

section Stage

variable {v : View} {holder? : String → Option UInt64} {options : ClassifyOptions}
  {results : List BlockResult}

/-- After the last write the last row of a number that was not stored as it is stands, whether or
not numbers are asked for twice. -/
theorem block?_stage_last_of_repeats (n : UInt64) :
    ((classified v holder? options results).stage v 3).block? n =
      (lastWith? BlockRow.number
        ((resultRows v options results).filter fun row => v.block? row.number ≠ some row) n).or
        (v.block? n) := by
  show (lastWith? BlockRow.number ((classified v holder? options results).newBlocks ++
    (classified v holder? options results).changedBlocks) n).or (v.block? n) = _
  rw [newBlocks_classified, changedBlocks_classified, lastWith?_parts]

/-- The rows of a number that are not stored are all of them but the stored one. -/
theorem lastWith?_of_stored {rows : List BlockRow} {n : UInt64} {old : BlockRow}
    (stored : v.block? n = some old) :
    lastWith? BlockRow.number (rows.filter fun row => v.block? row.number ≠ some row) n =
      lastWith? BlockRow.number (rows.filter (· ≠ old)) n := by
  refine lastWith?_congr ?_
  rw [List.filter_filter, List.filter_filter]
  refine List.filter_congr fun row _ => ?_
  by_cases here : row.number = n
  · simp [here, stored, eq_comm]
  · simp [here]

/-- The last row of a number gives it its hash, where the number is not eclipsed. -/
theorem hash_stage_last_iff {n : UInt64} {row : BlockRow}
    (last : lastWith? BlockRow.number (resultRows v options results) n = some row) :
    (((classified v holder? options results).stage v 3).block? n).map BlockRow.hash = some row.hash ↔
      ¬ Eclipsed v (resultRows v options results) n := by
  obtain ⟨_, number⟩ := lastWith?_some last
  rw [block?_stage_last_of_repeats]
  by_cases stored : v.block? n = some row
  · -- the last row is not written, so what stands is the last of the other rows, or it was there
    rw [lastWith?_of_stored stored, stored]
    cases other : lastWith? BlockRow.number ((resultRows v options results).filter (· ≠ row)) n with
    | none =>
      refine iff_of_true rfl ?_
      rintro ⟨old, _, hold, _, found, _⟩
      obtain rfl := Option.some.inj (stored.symm.trans hold)
      rw [other] at found
      cases found
    | some written =>
      rw [Option.some_or, Option.map_some, Option.some.injEq]
      constructor
      · rintro same ⟨old, _, hold, _, found, differs⟩
        obtain rfl := Option.some.inj (stored.symm.trans hold)
        obtain rfl := Option.some.inj (other.symm.trans found)
        exact differs same
      · intro clear
        by_contra differs
        exact clear ⟨row, written, stored, last, other, differs⟩
  · have written : lastWith? BlockRow.number
        ((resultRows v options results).filter fun row => v.block? row.number ≠ some row) n =
          some row :=
      lastWith?_filter_of_last last (by simpa [number] using stored)
    rw [written, Option.some_or]
    refine iff_of_true rfl ?_
    rintro ⟨old, _, hold, same, _⟩
    exact stored (hold.trans (same.symm.trans last))

end Stage

/-- The last row for a number is that of the last verified block with the number. -/
theorem lastWith?_resultRows (v : View) (options : ClassifyOptions) {blocks : List Block}
    {n : UInt64} {b : Block}
    (last : lastWith? Block.numberWord (blocks.filter Block.isVerified) n = some b) :
    ∃ row, lastWith? BlockRow.number (resultRows v options (givenResults blocks)) n = some row ∧
      row.hash = b.hashNormalized := by
  rw [resultRows_eq, goodBlocks_given, completedRows, lastWith?_map_rows]
  simp only [Context.complete_number, rowOf_number]
  exact ⟨_, congrArg _ last, by rw [Context.complete_hash, rowOf_hash]⟩

open LawfulBackend

variable {σ : Type} [Backend σ] [LawfulBackend σ]

/-- Where a list of blocks is written, the stored hash of a number is that of the last verified
block with this number just where the number is not eclipsed. -/
theorem last_block_stands_iff {options : ClassifyOptions} {blocks : List Block} {s s' : σ}
    {report : BatchReport} (written : (writeBlocks options blocks).on s = (.ok report, s'))
    {n : UInt64} {b : Block}
    (last : lastWith? Block.numberWord (blocks.filter Block.isVerified) n = some b) :
    ((view s').block? n).map BlockRow.hash = some b.hashNormalized ↔
      ¬ Eclipsed (view s) (resultRows (view s) options (givenResults blocks)) n := by
  obtain ⟨row, found, hash⟩ := lastWith?_resultRows (view s) options last
  rw [(writeBlocks_ok written).2.1, ← hash]
  exact hash_stage_last_iff found

namespace TwoForks

/-- Two blocks of one number. -/
def first : Block := { number := "0x5", hash := "0xab" }

@[inherit_doc first]
def second : Block := { number := "0x5", hash := "0xcd" }

/-- A store that has the first of them. -/
def store : MemoryStore := (default : MemoryStore).insertBlock (BlockRow.ofBlock first)

/-- In either order the second block stands once both are written. -/
theorem written {blocks : List Block} (both : blocks = [first, second] ∨ blocks = [second, first]) :
    ∃ report s', (writeBlocks ⟨false, false⟩ blocks).on store = (.ok report, s') ∧
      ((view s').block? 5).map BlockRow.hash = some "0xcd" := by
  have sturdy : Sturdy store := (rfl : store.failing = [])
  have fits : GivenFits (view store) blocks := by
    rcases both with rfl | rfl <;> decide +kernel
  obtain ⟨report, s', done, _⟩ := writeBlocks_of_sturdy ⟨false, false⟩ sturdy fits
  refine ⟨report, s', done, ?_⟩
  rw [(writeBlocks_ok done).2.1]
  rcases both with rfl | rfl
  · decide +kernel
  · decide +kernel

end TwoForks

open TwoForks

/-- The second block stands behind the first one. -/
theorem last_block_stands_of_forward :
    ∃ report s', (writeBlocks ⟨false, false⟩ [first, second]).on store = (.ok report, s') ∧
      lastWith? Block.numberWord ([first, second].filter Block.isVerified) 5 = some second ∧
      ((view s').block? 5).map BlockRow.hash = some second.hashNormalized ∧
      ¬ Eclipsed (view store)
        (resultRows (view store) ⟨false, false⟩ (givenResults [first, second])) 5 := by
  obtain ⟨report, s', done, stands⟩ := written (.inl rfl)
  have last : lastWith? Block.numberWord ([first, second].filter Block.isVerified) 5 = some second := by
    decide +kernel
  exact ⟨report, s', done, last, stands, (last_block_stands_iff done last).mp stands⟩

/-- The first block is stored, so it does not stand again behind the second one. -/
theorem last_block_eclipsed_of_backward :
    ∃ report s', (writeBlocks ⟨false, false⟩ [second, first]).on store = (.ok report, s') ∧
      lastWith? Block.numberWord ([second, first].filter Block.isVerified) 5 = some first ∧
      ((view s').block? 5).map BlockRow.hash ≠ some first.hashNormalized := by
  obtain ⟨report, s', done, stands⟩ := written (.inr rfl)
  refine ⟨report, s', done, by decide +kernel, ?_⟩
  rw [stands]
  decide +kernel

end Batch

end ChainIndex
