import ChainIndex.Proofs.Batch.Classification

/-!
# Persisting a batch

A batch is persisted by three writes: issues, blocks, transactions.  `stage` is what a store
holds after the first of them.  `persist_on` says that `persist` reaches the last stage, or
breaks off at an earlier one because a write failed.

New and changed rows put into the store leave what all rows of the batch would leave
(`block?_stage`, `transaction?_stage`), where no number is asked for twice.
-/

namespace ChainIndex

/-! ## New and changed rows -/

theorem mem_of_mem_parts {ρ : Type} {p q : ρ → Bool} {rows : List ρ} {row : ρ}
    (h : row ∈ rows.filter p ++ rows.filter q) : row ∈ rows := by
  rcases List.mem_append.mp h with h | h
  · exact (List.mem_filter.mp h).1
  · exact (List.mem_filter.mp h).1

/-- The rows that are not stored and those that differ from the stored ones have the last row of a
key that is not stored as it is. -/
theorem lastWith?_parts {κ ρ : Type} [DecidableEq κ] [DecidableEq ρ] {keyOf : ρ → κ}
    (rows : List ρ) (lookup : κ → Option ρ) (key : κ) :
    lastWith? keyOf ((rows.filter fun r => (lookup (keyOf r)).isNone) ++
        rows.filter fun r => (lookup (keyOf r)).any (· ≠ r)) key =
      lastWith? keyOf (rows.filter fun r => lookup (keyOf r) ≠ some r) key := by
  refine lastWith?_congr ?_
  rw [List.filter_append, List.filter_filter, List.filter_filter, List.filter_filter]
  -- the rows of one key are all in the one part or all in the other
  cases stored : lookup key with
  | none =>
    have changed : (rows.filter fun r =>
        decide (keyOf r = key) && (lookup (keyOf r)).any (· ≠ r)) = [] := by
      refine List.filter_eq_nil_iff.mpr fun r _ h => ?_
      simp only [Bool.and_eq_true, decide_eq_true_eq] at h
      rw [h.1, stored] at h
      exact absurd h.2 Bool.false_ne_true
    rw [changed, List.append_nil]
    refine List.filter_congr fun r _ => ?_
    by_cases here : keyOf r = key <;> simp [here, stored]
  | some old =>
    have new : (rows.filter fun r => decide (keyOf r = key) && (lookup (keyOf r)).isNone) = [] := by
      refine List.filter_eq_nil_iff.mpr fun r _ h => ?_
      simp only [Bool.and_eq_true, decide_eq_true_eq] at h
      rw [h.1, stored] at h
      exact absurd h.2 Bool.false_ne_true
    rw [new, List.nil_append]
    refine List.filter_congr fun r _ => ?_
    by_cases here : keyOf r = key <;> simp [here, stored]

/-- The rows that are not stored and those that differ from the stored ones, put together, leave
what all rows leave. -/
theorem lastWith?_new_changed {κ ρ : Type} [DecidableEq κ] [DecidableEq ρ] {keyOf : ρ → κ}
    {rows : List ρ} (hd : (rows.map keyOf).Nodup) (lookup : κ → Option ρ) (key : κ) :
    (lastWith? keyOf ((rows.filter fun r => (lookup (keyOf r)).isNone) ++
        rows.filter fun r => (lookup (keyOf r)).any (· ≠ r)) key).or (lookup key) =
      (lastWith? keyOf rows key).or (lookup key) := by
  rw [lastWith?_parts]
  cases found : lastWith? keyOf rows key with
  | none =>
    rw [lastWith?_eq_none_iff.mpr]
    exact fun r hr => lastWith?_eq_none_iff.mp found r (List.mem_filter.mp hr).1
  | some row =>
    obtain ⟨hrow, rfl⟩ := lastWith?_some found
    by_cases stored : lookup (keyOf row) = some row
    · rw [lastWith?_eq_none_iff.mpr, Option.none_or, stored, Option.some_or]
      intro r hr hk
      obtain ⟨hr, hother⟩ := List.mem_filter.mp hr
      obtain rfl : r = row :=
        Option.some.inj ((lastWith?_of_nodup hd hr).symm.trans (hk ▸ found))
      exact of_decide_eq_true hother stored
    · rw [lastWith?_filter_of_last found (decide_eq_true stored)]

namespace Batch

/-! ## Stages -/

/-- What a store holds after the first writes of a batch: none of them, the issues, those and the
blocks, or all. -/
def stage (b : Batch) (v : View) : Nat → View
  | 0 => v
  | 1 => v.addIssues b.issues
  | 2 => (v.addIssues b.issues).putBlocks (b.newBlocks ++ b.changedBlocks)
  | _ => ((v.addIssues b.issues).putBlocks (b.newBlocks ++ b.changedBlocks)).putTransactions
      (b.newTransactions ++ b.changedTransactions)

theorem stage_of_le (b : Batch) (v : View) {k : Nat} (h : 3 ≤ k) : b.stage v k = b.stage v 3 := by
  obtain ⟨n, rfl⟩ := Nat.exists_eq_add_of_le' h
  rfl

variable {σ : Type} [Backend σ]

/-- The first writes of a batch: none of them, the issues, those and the blocks, or all. -/
def persistFirst (b : Batch) : Nat → Action σ Unit
  | 0 => pure ()
  | 1 => do let _ ← b.recordIssues
  | 2 => do
    let _ ← b.recordIssues
    b.storeBlocks
  | _ => do let _ ← b.persist

variable [LawfulBackend σ]

open LawfulBackend

/-! ## The three writes -/

theorem writes_nothing {α : Type} {s : σ} {a : α} {action : Action σ α}
    (h : action.on s = (.ok a, s)) : Writes view Sturdy action s a (view s) :=
  .inl ⟨s, h, rfl, id, fun _ => rfl⟩

theorem recordIssues_on (b : Batch) (s : σ) :
    Writes view Sturdy b.recordIssues s (appendIssues (view s).log b.issues).1
      ((view s).addIssues b.issues) := by
  rw [recordIssues]
  cases h : b.issues with
  | nil => exact writes_nothing rfl
  | cons i rest => exact saveIssues_on s (i :: rest)

theorem storeBlocks_on (b : Batch) (s : σ) :
    Writes view Sturdy b.storeBlocks s ()
      ((view s).putBlocks (b.newBlocks ++ b.changedBlocks)) := by
  rw [storeBlocks]
  split
  case isTrue h =>
    simp only [Bool.and_eq_true, List.isEmpty_iff] at h
    rw [h.1, h.2]
    exact writes_nothing rfl
  case isFalse => exact saveBlocks_on s b.newBlocks b.changedBlocks

theorem storeTransactions_on (b : Batch) (s : σ) :
    Writes view Sturdy b.storeTransactions s ()
      ((view s).putTransactions (b.newTransactions ++ b.changedTransactions)) := by
  rw [storeTransactions]
  split
  case isTrue h =>
    simp only [Bool.and_eq_true, List.isEmpty_iff] at h
    rw [h.1, h.2]
    exact writes_nothing rfl
  case isFalse => exact saveTransactions_on s b.newTransactions b.changedTransactions

/-- Persisting a batch reaches the last stage, or a write fails and leaves an earlier one. -/
theorem persist_on (b : Batch) (s : σ) :
    (∃ s', b.persist.on s = (.ok (appendIssues (view s).log b.issues).1, s') ∧
        view s' = b.stage (view s) 3 ∧ (Sturdy s → Sturdy s') ∧
        ((view s').block? = (view s).block? → Backend.holder? s' = Backend.holder? s)) ∨
      (¬ Sturdy s ∧ ∃ k < 3, ∃ s' reason, b.persist.on s = (.error (.storage reason), s') ∧
        view s' = b.stage (view s) k) := by
  rw [persist]
  rcases recordIssues_on b s with ⟨s₁, h₁, v₁, t₁, o₁⟩ | ⟨frail, reason, h₁⟩
  case inr => exact .inr ⟨frail, 0, by decide, s, reason, Effect.on_bind_error h₁, rfl⟩
  rw [Effect.on_bind_ok h₁]
  rcases storeBlocks_on b s₁ with ⟨s₂, h₂, v₂, t₂, o₂⟩ | ⟨frail, reason, h₂⟩
  case inr =>
    exact .inr ⟨fun h => frail (t₁ h), 1, by decide, s₁, reason, Effect.on_bind_error h₂, v₁⟩
  rw [Effect.on_bind_ok h₂]
  have stage₂ : view s₂ = b.stage (view s) 2 := by rw [v₂, v₁, stage]
  rcases storeTransactions_on b s₂ with ⟨s₃, h₃, v₃, t₃, o₃⟩ | ⟨frail, reason, h₃⟩
  case inr =>
    exact .inr ⟨fun h => frail (t₂ (t₁ h)), 2, by decide, s₂, reason, Effect.on_bind_error h₃,
      stage₂⟩
  rw [Effect.on_bind_ok h₃]
  refine .inl ⟨s₃, rfl, ?_, fun h => t₃ (t₂ (t₁ h)), ?_⟩
  · rw [v₃, stage₂]
    rfl
  · -- only the second write can change the rows of blocks
    intro same
    have blocks₁ : (view s₁).block? = (view s).block? := by
      rw [v₁]
      rfl
    have blocks₂ : (view s₂).block? = (view s).block? := by
      rw [← same, v₃]
      rfl
    rw [o₃ rfl, o₂ (v₂ ▸ blocks₂.trans blocks₁.symm), o₁ rfl]

/-- In a sturdy store a batch is persisted. -/
theorem persist_of_sturdy (b : Batch) {s : σ} (hs : Sturdy s) :
    ∃ s', b.persist.on s = (.ok (appendIssues (view s).log b.issues).1, s') ∧
      view s' = b.stage (view s) 3 ∧ Sturdy s' := by
  rcases persist_on b s with ⟨s', done, hview, sturdy, _⟩ | ⟨frail, _⟩
  · exact ⟨s', done, hview, sturdy hs⟩
  · exact absurd hs frail

/-- A batch that is persisted has reached the last stage. -/
theorem persist_ok {b : Batch} {s s' : σ} {i : Nat} (h : b.persist.on s = (.ok i, s')) :
    i = (appendIssues (view s).log b.issues).1 ∧ view s' = b.stage (view s) 3 ∧
      ((view s').block? = (view s).block? → Backend.holder? s' = Backend.holder? s) := by
  rcases persist_on b s with ⟨s₁, done, hview, _, hholder⟩ | ⟨_, _, _, _, _, fails, _⟩
  · rw [done] at h
    cases h
    exact ⟨rfl, hview, hholder⟩
  · rw [fails] at h
    cases h

/-- The first writes of a batch reach their stage, or one of them fails. -/
theorem persistFirst_on (b : Batch) (s : σ) (k : Nat) :
    (∃ s', (b.persistFirst k).on s = (.ok (), s') ∧ view s' = b.stage (view s) k ∧
        (Sturdy s → Sturdy s')) ∨
      (¬ Sturdy s ∧ ∃ s' reason, (b.persistFirst k).on s = (.error (.storage reason), s')) := by
  match k with
  | 0 => exact .inl ⟨s, rfl, rfl, id⟩
  | 1 =>
    rcases recordIssues_on b s with ⟨s₁, h₁, v₁, t₁, _⟩ | ⟨frail, reason, h₁⟩
    · exact .inl ⟨s₁, Effect.on_bind_ok h₁, v₁, t₁⟩
    · exact .inr ⟨frail, s, reason, Effect.on_bind_error h₁⟩
  | 2 =>
    rcases recordIssues_on b s with ⟨s₁, h₁, v₁, t₁, _⟩ | ⟨frail, reason, h₁⟩
    case inr => exact .inr ⟨frail, s, reason, Effect.on_bind_error h₁⟩
    rcases storeBlocks_on b s₁ with ⟨s₂, h₂, v₂, t₂, _⟩ | ⟨frail, reason, h₂⟩
    · exact .inl ⟨s₂, (Effect.on_bind_ok h₁).trans h₂, by rw [v₂, v₁, stage], fun h => t₂ (t₁ h)⟩
    · exact .inr ⟨fun h => frail (t₁ h), s₁, reason, (Effect.on_bind_ok h₁).trans h₂⟩
  | n + 3 =>
    rcases persist_on b s with ⟨s₃, h₃, v₃, t₃, _⟩ | ⟨frail, _, _, s₃, reason, h₃, _⟩
    · exact .inl ⟨s₃, Effect.on_bind_ok h₃, v₃, t₃⟩
    · exact .inr ⟨frail, s₃, reason, Effect.on_bind_error h₃⟩

theorem persistFirst_ok {b : Batch} {s s' : σ} {k : Nat}
    (h : (b.persistFirst k).on s = (.ok (), s')) : view s' = b.stage (view s) k := by
  rcases persistFirst_on b s k with ⟨s₁, done, hview, _⟩ | ⟨_, _, _, fails⟩
  · rw [done] at h
    cases h
    exact hview
  · rw [fails] at h
    cases h

/-! ## Tables after a stage -/

theorem openRows_completed (c : Context) (options : ClassifyOptions) (results : List BlockResult) :
    (completedRows c options (goodBlocks results)).map BlockRow.number =
      (openRows options results).map BlockRow.number := by
  rw [completedRows, openRows, List.map_map, List.map_map]
  rfl

/-- The rows that a classification completes have pairwise distinct numbers. -/
theorem completedRows_nodup (c : Context) (options : ClassifyOptions) {results : List BlockResult}
    (h : (results.map BlockResult.number).Nodup) :
    ((completedRows c options (goodBlocks results)).map BlockRow.number).Nodup := by
  rw [openRows_completed]
  exact openRows_nodup options h

variable {v : View} {holder? : String → Option UInt64} {options : ClassifyOptions}
  {results : List BlockResult}

/-- After the last write every row of the batch is stored. -/
theorem block?_stage_last (hd : (results.map BlockResult.number).Nodup) (n : UInt64) :
    ((classified v holder? options results).stage v 3).block? n =
      (lastWith? BlockRow.number (completedRows (contextOf v holder? options results) options
        (goodBlocks results)) n).or (v.block? n) :=
  lastWith?_new_changed (completedRows_nodup _ options hd) v.block? n

/-- The second write is the only one that stores rows of blocks. -/
theorem block?_stage (b : Batch) (v : View) (k : Nat) :
    (b.stage v k).block? = if k < 2 then v.block? else (b.stage v 3).block? :=
  match k with
  | 0 => rfl
  | 1 => rfl
  | 2 => rfl
  | _ + 3 => rfl

/-- After the last write every transaction of the batch is stored with its last row. -/
theorem transaction?_stage_last (h : String) :
    ((classified v holder? options results).stage v 3).transaction? h =
      (lastWith? TransactionRow.hash (transactionsOf options (goodBlocks results)) h).or
        (v.transaction? h) := by
  rw [← lastWith?_distinct]
  exact lastWith?_new_changed (distinct_nodup _) v.transaction? h

/-- The rows of other numbers stay. -/
theorem block?_stage_of_not_mem (hd : (results.map BlockResult.number).Nodup) (k : Nat) {n : UInt64}
    (h : n ∉ (openRows options results).map BlockRow.number) :
    ((classified v holder? options results).stage v k).block? n = v.block? n := by
  rw [block?_stage]
  split
  case isTrue => rfl
  case isFalse =>
    rw [block?_stage_last hd, lastWith?_eq_none_iff.mpr, Option.none_or]
    intro row hrow hk
    rw [← openRows_completed (contextOf v holder? options results), ← hk] at h
    exact h (List.mem_map_of_mem hrow)

/-- After the last stage each row of the batch is stored. -/
theorem block?_completed (hd : (results.map BlockResult.number).Nodup) {row : BlockRow}
    (h : row ∈ completedRows (contextOf v holder? options results) options (goodBlocks results)) :
    ((classified v holder? options results).stage v 3).block? row.number = some row := by
  rw [block?_stage_last hd, lastWith?_of_nodup (completedRows_nodup _ options hd) h, Option.some_or]

/-- The third write is the only one that stores rows of transactions. -/
theorem transaction?_stage (b : Batch) (v : View) (k : Nat) :
    (b.stage v k).transaction? = if k < 3 then v.transaction? else (b.stage v 3).transaction? :=
  match k with
  | 0 => rfl
  | 1 => rfl
  | 2 => rfl
  | _ + 3 => rfl

/-- After the last stage each transaction of the batch is stored. -/
theorem transaction?_distinct {tx : TransactionRow}
    (h : tx ∈ distinct (transactionsOf options (goodBlocks results))) :
    ((classified v holder? options results).stage v 3).transaction? tx.hash = some tx := by
  rw [transaction?_stage_last, mem_distinct_iff.mp h, Option.some_or]

/-- The first write is the only one that adds to the log. -/
theorem log_stage (b : Batch) (v : View) (k : Nat) :
    (b.stage v k).log = if k = 0 then v.log else (appendIssues v.log b.issues).2 :=
  match k with
  | 0 => rfl
  | 1 => rfl
  | 2 => rfl
  | _ + 3 => rfl

/-- No write of a batch moves a checkpoint. -/
theorem checkpoint?_stage (b : Batch) (v : View) (k : Nat) :
    (b.stage v k).checkpoint? = v.checkpoint? :=
  match k with
  | 0 => rfl
  | 1 => rfl
  | 2 => rfl
  | _ + 3 => rfl

end Batch

end ChainIndex
