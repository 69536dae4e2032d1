import ChainIndex.Proofs.Batch.Persist

/-!
# The evidence of a batch

What a batch overwrites has an issue in the same batch.  A block that is stored with another
hash has a reorg issue, and a transaction that is stored in another block has an issue of its
own.  Issues are the first write of a batch, so the evidence is on record before a row goes
(`announces_stage`).

The reorg issues of a batch are exactly those of its blocks (`mem_issues_of_kind_reorg`).  Every
other issue of a batch is of another kind.  A batch counts as many reorgs as it has such issues
(`reorgs_classified`).
-/

namespace ChainIndex

/-- What changes from one content of a store to the next is on record in the first.  No row goes
away, a block whose hash changes has its reorg issue, and a transaction that moves to another
block has its issue. -/
structure View.Announces (before after : View) : Prop where
  keepsBlock : ∀ n, (before.block? n).isSome → (after.block? n).isSome
  keepsTransaction : ∀ h, (before.transaction? h).isSome → (after.transaction? h).isSome
  reorg : ∀ n old new, before.block? n = some old → after.block? n = some new →
    old.hash ≠ new.hash → Recorded before.log (Issue.reorg n old.hash new.hash)
  moved : ∀ h old new, before.transaction? h = some old → after.transaction? h = some new →
    old.blockNumber ≠ new.blockNumber →
      Recorded before.log
        (Issue.duplicatedTxHash h new.blockNumber new.blockHash old.blockNumber old.blockHash)

/-- Nothing has to be on record where rows stay as they are. -/
theorem View.Announces.of_rows {before after : View} (blocks : after.block? = before.block?)
    (transactions : after.transaction? = before.transaction?) : before.Announces after where
  keepsBlock n h := by rwa [blocks]
  keepsTransaction h stored := by rwa [transactions]
  reorg n old new hold hnew other := by
    rw [blocks, hold, Option.some.injEq] at hnew
    exact absurd (congrArg BlockRow.hash hnew) other
  moved h old new hold hnew other := by
    rw [transactions, hold, Option.some.injEq] at hnew
    exact absurd (congrArg TransactionRow.blockNumber hnew) other

/-! ## Reorgs -/

/-- The reorg issue of a number for a new hash, where it is stored with another one. -/
def View.reorg? (v : View) (n : UInt64) (hash : String) : Option Issue :=
  (v.block? n).bind fun row =>
    if row.hash ≠ hash then some (Issue.reorg n row.hash hash) else none

theorem View.reorg?_eq_some {v : View} {n : UInt64} {hash : String} {issue : Issue} :
    v.reorg? n hash = some issue ↔
      ∃ row, v.block? n = some row ∧ row.hash ≠ hash ∧ issue = Issue.reorg n row.hash hash := by
  rw [reorg?]
  cases v.block? n with
  | none => simp
  | some row =>
    by_cases same : row.hash = hash
    · simp [same]
    · simp [same, @eq_comm Issue]

theorem View.reorg?_eq_none {v : View} {n : UInt64} {hash : String} :
    v.reorg? n hash = none ↔ ∀ row, v.block? n = some row → row.hash = hash := by
  rw [reorg?]
  cases v.block? n with
  | none => simp
  | some row => simp

theorem View.reorg?_congr {v v' : View} {n : UInt64} (same : v'.block? n = v.block? n)
    (hash : String) : v'.reorg? n hash = v.reorg? n hash := by
  rw [reorg?, reorg?, same]

namespace Batch

/-! ## Kinds of issues -/

section Kinds

variable {c : Context} {options : ClassifyOptions} {issue : Issue}

/-- The issue of a failed result is about its number. -/
theorem eq_failure_of_siftIssue {r : BlockResult} (h : siftIssue? r = some issue) :
    ∃ reason, issue = Issue.failure r.number "" "" reason := by
  rw [siftIssue?, sift] at h
  split at h
  case h_1 => cases h
  case h_2 _ failed =>
    cases h
    split at failed
    case h_1 =>
      split at failed <;> cases failed
      exact ⟨_, rfl⟩
    case h_2 =>
      cases failed
      exact ⟨_, rfl⟩

theorem kind_of_siftIssue {r : BlockResult} (h : siftIssue? r = some issue) :
    issue.kind = .error := by
  obtain ⟨reason, rfl⟩ := eq_failure_of_siftIssue h
  rfl

theorem kind_of_hashIssues {hashes : List (String × UInt64)} {row : BlockRow}
    (h : issue ∈ hashIssues c hashes row) : issue.kind = .duplicatedBlockHash := by
  simp only [hashIssues, List.mem_append] at h
  rcases h with h | h
  all_goals
    split at h
    case h_2 => cases h
    case h_1 =>
      split at h
      case isTrue => exact List.mem_singleton.mp h ▸ rfl
      case isFalse => cases h

theorem kind_of_issuesOver {old : Option TransactionRow} {tx : TransactionRow}
    (h : issue ∈ issuesOver old tx) : issue.kind = .duplicatedTxHash := by
  cases old with
  | none => cases h
  | some old =>
    rw [issuesOver, movedIssue] at h
    split at h
    case isTrue => exact List.mem_singleton.mp h ▸ rfl
    case isFalse => cases h

theorem kind_of_moves {seen txs : List TransactionRow} (h : issue ∈ moves seen txs) :
    issue.kind = .duplicatedTxHash := by
  induction txs generalizing seen with
  | nil => cases h
  | cons tx rest ih =>
    rw [moves] at h
    exact (List.mem_append.mp h).elim kind_of_issuesOver ih

theorem mem_reorgIssues {row : BlockRow} :
    issue ∈ c.reorgIssues row ↔ ∃ old, c.storedRow? row.number = some old ∧
      old.hash ≠ row.hash ∧ issue = Issue.reorg row.number old.hash row.hash := by
  rw [Context.reorgIssues]
  cases c.storedRow? row.number with
  | none => simp
  | some old =>
    by_cases same : old.hash = row.hash
    · simp [same]
    · simp [same]

/-- The reorg issues of blocks are those of their rows. -/
theorem mem_blockIssues_of_reorg {hashes : List (String × UInt64)} {seen : List TransactionRow}
    {blocks : List Block} {b : Block} (hb : b ∈ blocks)
    (h : issue ∈ c.reorgIssues (rowOf options b)) :
    issue ∈ blockIssues c options hashes seen blocks := by
  induction blocks generalizing hashes seen with
  | nil => cases hb
  | cons first rest ih =>
    simp only [blockIssues, List.mem_append]
    rcases List.mem_cons.mp hb with rfl | hb
    · exact .inl (.inr h)
    · exact .inr (ih hb)

theorem reorg_of_mem_blockIssues {hashes : List (String × UInt64)} {seen : List TransactionRow}
    {blocks : List Block} (h : issue ∈ blockIssues c options hashes seen blocks)
    (kind : issue.kind = .reorg) : ∃ b ∈ blocks, issue ∈ c.reorgIssues (rowOf options b) := by
  induction blocks generalizing hashes seen with
  | nil => cases h
  | cons b rest ih =>
    simp only [blockIssues, List.mem_append] at h
    rcases h with ((h | h) | h) | h
    · rw [kind_of_hashIssues h] at kind
      cases kind
    · rw [kind_of_moves h] at kind
      cases kind
    · exact ⟨b, List.mem_cons_self, h⟩
    · obtain ⟨b', hb', h⟩ := ih h
      exact ⟨b', List.mem_cons_of_mem b hb', h⟩

end Kinds

@[simp] theorem rowOf_hash (options : ClassifyOptions) (b : Block) :
    (rowOf options b).hash = b.hashNormalized := by
  rw [rowOf]
  split <;> rfl

/-! ## Issues of a classification -/

variable {v : View} {holder? : String → Option UInt64} {options : ClassifyOptions}
  {results : List BlockResult}

/-- A batch has the reorg issue of each of its blocks. -/
theorem mem_issues_of_reorg {b : Block} {issue : Issue} (hb : b ∈ goodBlocks results)
    (h : issue ∈ (contextOf v holder? options results).reorgIssues (rowOf options b)) :
    issue ∈ (classified v holder? options results).issues :=
  List.mem_append_left _ (List.mem_append_right _ (mem_blockIssues_of_reorg hb h))

/-- A batch has no other reorg issues. -/
theorem mem_issues_of_kind_reorg {issue : Issue}
    (h : issue ∈ (classified v holder? options results).issues) (kind : issue.kind = .reorg) :
    ∃ b ∈ goodBlocks results,
      issue ∈ (contextOf v holder? options results).reorgIssues (rowOf options b) := by
  rcases List.mem_append.mp h with h | h
  · rcases List.mem_append.mp h with h | h
    · obtain ⟨r, _, failed⟩ := List.mem_filterMap.mp h
      rw [kind_of_siftIssue failed] at kind
      cases kind
    · exact reorg_of_mem_blockIssues h kind
  · obtain ⟨tx, _, h⟩ := List.mem_flatMap.mp h
    rw [kind_of_issuesOver h] at kind
    cases kind

theorem reorgIssues_rowOf (b : Block) :
    (contextOf v holder? options results).reorgIssues (rowOf options b) =
      (v.reorg? b.numberWord b.hashNormalized).toList := by
  have stored (n : UInt64) : (contextOf v holder? options results).storedRow? n = v.block? n := rfl
  rw [Context.reorgIssues, View.reorg?, stored, rowOf_number, rowOf_hash]
  cases v.block? b.numberWord with
  | none => rfl
  | some row =>
    rw [Option.bind_some]
    dsimp only
    split <;> rfl

/-- A batch counts the blocks that have a reorg issue. -/
theorem reorgs_classified : (classified v holder? options results).reorgs =
    ((goodBlocks results).filterMap fun b => v.reorg? b.numberWord b.hashNormalized).length := by
  rw [List.filterMap_eq_flatMap_toList]
  show ((goodBlocks results).flatMap fun b => _).length = _
  simp only [reorgIssues_rowOf]

/-- A batch has the issue of each transaction that is stored in another block. -/
theorem mem_issues_of_storedMoves {tx : TransactionRow} {issue : Issue}
    (htx : tx ∈ distinct (transactionsOf options (goodBlocks results)))
    (h : issue ∈ storedMoves v.transaction? tx) :
    issue ∈ (classified v holder? options results).issues :=
  List.mem_append_right _ (List.mem_flatMap.mpr ⟨tx, htx, h⟩)

/-! ## What is overwritten -/

/-- The first write puts all issues of a batch on record. -/
theorem recorded_stage_one {b : Batch} {issue : Issue} (h : issue ∈ b.issues) :
    Recorded (b.stage v 1).log issue :=
  recorded_appendIssues.mpr (.inr (.of_mem h))

theorem announces_blocks :
    ((classified v holder? options results).stage v 1).Announces
      ((classified v holder? options results).stage v 2) where
  keepsBlock n h := by
    show ((lastWith? BlockRow.number _ n).or (v.block? n)).isSome = true
    rw [Option.isSome_or, Bool.or_eq_true]
    exact .inr h
  keepsTransaction _ h := h
  moved _ _ _ hold hnew other := by
    cases hold.symm.trans hnew
    exact absurd rfl other
  reorg n old new hold hnew other := by
    have hold : v.block? n = some old := hold
    rcases Option.or_eq_some_iff.mp hnew with found | ⟨_, stands⟩
    · -- the row is one of the batch, so the batch has its issue
      obtain ⟨hrow, rfl⟩ := lastWith?_some found
      obtain ⟨b, hb, rfl⟩ := List.mem_map.mp (mem_of_mem_parts hrow)
      exact recorded_stage_one (mem_issues_of_reorg hb (mem_reorgIssues.mpr ⟨old, hold, other, rfl⟩))
    · cases hold.symm.trans stands
      exact absurd rfl other

theorem announces_transactions :
    ((classified v holder? options results).stage v 2).Announces
      ((classified v holder? options results).stage v 3) where
  keepsBlock _ h := h
  keepsTransaction key h := by
    show ((lastWith? TransactionRow.hash _ key).or (v.transaction? key)).isSome = true
    rw [Option.isSome_or, Bool.or_eq_true]
    exact .inr h
  reorg _ _ _ hold hnew other := by
    cases hold.symm.trans hnew
    exact absurd rfl other
  moved key old new hold hnew other := by
    have hold : v.transaction? key = some old := hold
    rcases Option.or_eq_some_iff.mp hnew with found | ⟨_, stands⟩
    · obtain ⟨htx, rfl⟩ := lastWith?_some found
      have moves : storedMoves v.transaction? new =
          [Issue.duplicatedTxHash new.hash new.blockNumber new.blockHash old.blockNumber
            old.blockHash] := by
        rw [storedMoves, hold, issuesOver, movedIssue, if_pos other]
      refine recorded_stage_one (mem_issues_of_storedMoves (mem_of_mem_parts htx) ?_)
      rw [moves]
      exact List.mem_singleton_self _
    · cases hold.symm.trans stands
      exact absurd rfl other

/-- Each write of a batch has the evidence of what it overwrites on record before it. -/
theorem announces_stage (k : Nat) :
    ((classified v holder? options results).stage v k).Announces
      ((classified v holder? options results).stage v (k + 1)) :=
  match k with
  | 0 => .of_rows rfl rfl
  | 1 => announces_blocks
  | 2 => announces_transactions
  | _ + 3 => .of_rows rfl rfl

end Batch

end ChainIndex
