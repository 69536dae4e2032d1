import ChainIndex.Batch
import Mathlib.Algebra.GroupWithZero.Nat
import Mathlib.Data.List.Induction

/-!
# Good results

`siftAll` keeps the blocks of the good results in order, and turns every other result
into an issue.  A good result has a block, no fault, and its block is the one asked for,
so the numbers of the rows are those that were asked for.
-/

namespace ChainIndex

/-! ## Verified blocks -/

theorem Block.verify_ok {b : Block} {n : UInt64} (h : b.verify n = .ok ()) :
    b.checkedNumber = .ok n ∧ b.hasHash = true := by
  rw [verify] at h
  cases hn : b.checkedNumber with
  | error fault =>
    rw [hn] at h
    cases h
  | ok number =>
    rw [hn] at h
    simp only [bind, Except.bind] at h
    by_cases other : number = n
    · rw [if_neg (not_not_intro other)] at h
      cases hash : b.hasHash with
      | true => exact ⟨congrArg _ other, rfl⟩
      | false =>
        rw [hash] at h
        cases h
    · rw [if_pos other] at h
      cases h

/-- A verified block is stored under the number that was asked for. -/
theorem Block.numberWord_of_verify {b : Block} {n : UInt64} (h : b.verify n = .ok ()) :
    b.numberWord = n := by
  have found := (verify_ok h).1
  rw [checkedNumber] at found
  rw [numberWord, Hex.word64]
  split at found
  case h_1 m hm =>
    cases found
    rw [hm]
    rfl
  case h_2 => cases found

namespace Batch

/-! ## Sifting -/

theorem sift_ok_iff {r : BlockResult} {b : Block} :
    sift r = .ok b ↔ r.block = some b ∧ r.fault = none ∧ b.verify r.number = .ok () := by
  rw [sift]
  split
  case h_1 block hblock hfault =>
    rw [hblock, hfault]
    cases hv : block.verify r.number with
    | ok _ =>
      simp only [Except.ok.injEq, Option.some.injEq, true_and]
      exact ⟨fun h => ⟨h, h ▸ hv⟩, And.left⟩
    | error fault =>
      simp only [reduceCtorEq, Option.some.injEq, true_and, false_iff]
      rintro ⟨rfl, h⟩
      rw [hv] at h
      cases h
  case h_2 other =>
    simp only [reduceCtorEq, false_iff]
    exact fun ⟨hblock, hfault, _⟩ => other b hblock hfault

/-- The blocks of the good results. -/
def goodBlocks (results : List BlockResult) : List Block :=
  results.filterMap fun r => (sift r).toOption

/-- The issue of a result that is not good. -/
def siftIssue? (r : BlockResult) : Option Issue :=
  match sift r with
  | .ok _ => none
  | .error issue => some issue

/-- The numbers of the results that are not good. -/
def failedNumbers (results : List BlockResult) : List UInt64 :=
  (results.filter fun r => (siftIssue? r).isSome).map BlockResult.number

theorem mem_failedNumbers {results : List BlockResult} {n : UInt64} :
    n ∈ failedNumbers results ↔ ∃ r ∈ results, r.number = n ∧ ∃ issue, sift r = .error issue := by
  simp only [failedNumbers, List.mem_map, List.mem_filter]
  constructor
  · rintro ⟨r, ⟨hr, failed⟩, rfl⟩
    refine ⟨r, hr, rfl, ?_⟩
    cases h : sift r with
    | ok _ => simp [siftIssue?, h] at failed
    | error issue => exact ⟨issue, rfl⟩
  · rintro ⟨r, hr, rfl, issue, h⟩
    exact ⟨r, ⟨hr, by simp [siftIssue?, h]⟩, rfl⟩

/-- The numbers of the good results. -/
def goodNumbers (results : List BlockResult) : List UInt64 :=
  (results.filter fun r => (siftIssue? r).isNone).map BlockResult.number

theorem mem_goodNumbers {results : List BlockResult} {n : UInt64} :
    n ∈ goodNumbers results ↔ ∃ r ∈ results, r.number = n ∧ ∃ b, sift r = .ok b := by
  simp only [goodNumbers, List.mem_map, List.mem_filter]
  constructor
  · rintro ⟨r, ⟨hr, good⟩, rfl⟩
    refine ⟨r, hr, rfl, ?_⟩
    cases h : sift r with
    | ok b => exact ⟨b, rfl⟩
    | error _ => simp [siftIssue?, h] at good
  · rintro ⟨r, hr, rfl, b, h⟩
    exact ⟨r, ⟨hr, by simp [siftIssue?, h]⟩, rfl⟩

section Cons

variable {r : BlockResult} (rest : List BlockResult)

theorem goodBlocks_cons_ok {b : Block} (h : sift r = .ok b) :
    goodBlocks (r :: rest) = b :: goodBlocks rest := by
  simp [goodBlocks, h, Except.toOption]

theorem goodBlocks_cons_error {issue : Issue} (h : sift r = .error issue) :
    goodBlocks (r :: rest) = goodBlocks rest := by
  simp [goodBlocks, h, Except.toOption]

theorem goodNumbers_cons_ok {b : Block} (h : sift r = .ok b) :
    goodNumbers (r :: rest) = r.number :: goodNumbers rest := by
  simp [goodNumbers, siftIssue?, h]

theorem goodNumbers_cons_error {issue : Issue} (h : sift r = .error issue) :
    goodNumbers (r :: rest) = goodNumbers rest := by
  simp [goodNumbers, siftIssue?, h]

end Cons

/-- The count of the transactions of all good blocks. -/
def transactionCount (results : List BlockResult) : Nat :=
  ((goodBlocks results).map fun b => b.transactions.length).sum

theorem siftAll_eq (options : ClassifyOptions) (results : List BlockResult) :
    siftAll options results = ((goodBlocks results).map fun b => (b, rowOf options b),
      { transactions := transactionCount results, issues := results.filterMap siftIssue?,
        failed := failedNumbers results }) := by
  induction results using List.reverseRecOn with
  | nil => rfl
  | append_singleton rest r ih =>
    rw [siftAll] at ih ⊢
    rw [List.foldl_append, ih, List.foldl_cons, List.foldl_nil]
    cases h : sift r with
    | ok block =>
      simp [goodBlocks, failedNumbers, transactionCount, siftIssue?, Except.toOption, h]
    | error issue =>
      simp [goodBlocks, failedNumbers, transactionCount, siftIssue?, note, Except.toOption, h]

/-! ## Rows of good blocks -/

@[simp] theorem rowOf_number (options : ClassifyOptions) (b : Block) :
    (rowOf options b).number = b.numberWord := by
  rw [rowOf]
  split <;> rfl

@[simp] theorem rowOf_timestamp (options : ClassifyOptions) (b : Block) :
    (rowOf options b).timestamp = b.timestampSigned := by
  rw [rowOf]
  split <;> rfl

theorem mem_goodBlocks {results : List BlockResult} {b : Block} :
    b ∈ goodBlocks results ↔ ∃ r ∈ results, sift r = .ok b := by
  simp only [goodBlocks, List.mem_filterMap]
  apply exists_congr
  intro r
  apply and_congr_right
  intro _
  cases sift r <;> simp [Except.toOption]

/-- The rows of the good blocks, their durations still open. -/
def openRows (options : ClassifyOptions) (results : List BlockResult) : List BlockRow :=
  (goodBlocks results).map (rowOf options)

/-- The numbers of the rows are those of the good results, in order. -/
theorem openRows_numbers (options : ClassifyOptions) (results : List BlockResult) :
    (openRows options results).map BlockRow.number = goodNumbers results := by
  induction results with
  | nil => rfl
  | cons r rest ih =>
    rw [openRows] at ih ⊢
    cases h : sift r with
    | ok b =>
      have number : b.numberWord = r.number := Block.numberWord_of_verify (sift_ok_iff.mp h).2.2
      rw [goodBlocks_cons_ok rest h, goodNumbers_cons_ok rest h, List.map_cons, List.map_cons, ih,
        rowOf_number, number]
    | error issue => rw [goodBlocks_cons_error rest h, goodNumbers_cons_error rest h, ih]

/-- Where no number is asked for twice, no two rows have one number. -/
theorem openRows_nodup (options : ClassifyOptions) {results : List BlockResult}
    (h : (results.map BlockResult.number).Nodup) :
    ((openRows options results).map BlockRow.number).Nodup := by
  rw [openRows_numbers]
  exact h.sublist (List.filter_sublist.map _)

end Batch

end ChainIndex
