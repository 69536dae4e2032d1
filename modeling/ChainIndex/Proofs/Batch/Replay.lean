import ChainIndex.Proofs.Batch.Persist
import ChainIndex.Proofs.Store.Lawful

/-!
# Replaying a window

Where a run breaks off, the next one classifies the same results again, against whatever
the broken writes left.  That is harmless for the tables: the rows of the batch come out as
they did before, because the duration of a row depends on the time of the block before it,
and that block is either in the batch or was not written by it.

It is not harmless for the log of issues.  A store names one number for a hash.  When the
window itself is stored, that may be another number than the one which stood there before,
or one that comes later in the window than the block at hand.  Then the second pass reports
a pair of numbers that the first one did not.  `HoldersRecorded` is the exact condition under
which it does not.  From the second replay on nothing is added (`later_replay_inserts_none`).
-/

namespace ChainIndex.Batch

variable {σ : Type} [Backend σ] [LawfulBackend σ]

open LawfulBackend

/-! ## After a stage -/

/-- Rows whose numbers are not in the batch are all that a classification reads the times of beyond
it. -/
theorem timeBefore?_congr {results : List BlockResult} {v w : View}
    (h : ∀ n, n ∉ (goodBlocks results).map Block.numberWord → w.block? n = v.block? n) :
    timeBefore? w results = timeBefore? v results := by
  funext n
  rw [timeBefore?, timeBefore?]
  cases found : lastWith? Block.numberWord (goodBlocks results) (n - 1) with
  | some _ => rfl
  | none =>
    rw [h (n - 1)]
    intro inside
    obtain ⟨b, hb, hk⟩ := List.mem_map.mp inside
    exact lastWith?_eq_none_iff.mp found b hb hk

section Stage

variable {options : ClassifyOptions} {results : List BlockResult} {s left : σ}

/-- Results classified again after any stage find the same times before them. -/
theorem timeBefore?_stage {k : Nat} (hd : (results.map BlockResult.number).Nodup)
    (hleft : view left = (prepared options results s).stage (view s) k) :
    timeBefore? (view left) results = timeBefore? (view s) results := by
  have numbers : (goodBlocks results).map Block.numberWord =
      (openRows options results).map BlockRow.number := by
    rw [openRows, List.map_map]
    exact List.map_congr_left fun b _ => (rowOf_number options b).symm
  refine timeBefore?_congr fun n outside => ?_
  rw [hleft]
  exact block?_stage_of_not_mem hd k (numbers ▸ outside)

/-- So their times fit as they did before. -/
theorem timesFit_stage {k : Nat} (hd : (results.map BlockResult.number).Nodup)
    (hleft : view left = (prepared options results s).stage (view s) k) :
    TimesFit (view left) results ↔ TimesFit (view s) results := by
  rw [TimesFit, TimesFit, timeBefore?_stage hd hleft]

/-- And they complete the same rows. -/
theorem completedRows_stage {k : Nat} (hd : (results.map BlockResult.number).Nodup)
    (hleft : view left = (prepared options results s).stage (view s) k) :
    completedRows (contextOf (view left) (Backend.holder? left) options results) options
        (goodBlocks results) =
      completedRows (contextOf (view s) (Backend.holder? s) options results) options
        (goodBlocks results) := by
  refine List.map_congr_left fun b _ => ?_
  simp only [Context.complete, Context.mintDuration, parentTime?_contextOf,
    timeBefore?_stage hd hleft]

/-- Classifying and persisting again after any stage leaves the tables of the last stage. -/
theorem replay_stage {k : Nat} (hd : (results.map BlockResult.number).Nodup)
    (hleft : view left = (prepared options results s).stage (view s) k) :
    let whole := (prepared options results s).stage (view s) 3
    let again := (prepared options results left).stage (view left) 3
    again.block? = whole.block? ∧ again.transaction? = whole.transaction? := by
  intro whole again
  constructor
  · funext n
    have hwhole : whole.block? n = _ := block?_stage_last hd n
    have hagain : again.block? n = _ := block?_stage_last hd n
    have rows : (view left).block? = if k < 2 then (view s).block? else whole.block? := by
      rw [hleft, block?_stage]
    rw [hagain, rows, completedRows_stage hd hleft]
    split
    · rw [hwhole]
    · rw [hwhole, ← Option.or_assoc, Option.or_self]
  · funext h
    have hwhole : whole.transaction? h = _ := transaction?_stage_last h
    have hagain : again.transaction? h = _ := transaction?_stage_last h
    have rows : (view left).transaction? =
        if k < 3 then (view s).transaction? else whole.transaction? := by
      rw [hleft, transaction?_stage]
    rw [hagain, rows]
    split
    · rw [hwhole]
    · rw [hwhole, ← Option.or_assoc, Option.or_self]

/-- After the last stage each row that is completed is stored. -/
theorem stored_of_completed (hd : (results.map BlockResult.number).Nodup)
    (hleft : view left = (prepared options results s).stage (view s) 3) {row : BlockRow}
    (h : row ∈ completedRows (contextOf (view left) (Backend.holder? left) options results) options
      (goodBlocks results)) : (view left).block? row.number = some row := by
  rw [completedRows_stage hd hleft] at h
  rw [hleft]
  exact block?_completed hd h

/-- After the last stage each transaction of the batch is stored. -/
theorem stored_of_distinct (hleft : view left = (prepared options results s).stage (view s) 3)
    {tx : TransactionRow} (h : tx ∈ distinct (transactionsOf options (goodBlocks results))) :
    (view left).transaction? tx.hash = some tx := by
  rw [hleft]
  exact transaction?_distinct h

/-- After the last stage the same results have no new and no changed rows. -/
theorem prepared_empty (hd : (results.map BlockResult.number).Nodup)
    (hleft : view left = (prepared options results s).stage (view s) 3) :
    let again := prepared options results left
    again.newBlocks = [] ∧ again.changedBlocks = [] ∧
      again.newTransactions = [] ∧ again.changedTransactions = [] := by
  intro again
  refine ⟨?_, ?_, ?_, ?_⟩
  · refine List.filter_eq_nil_iff.mpr ?_
    intro row hrow
    simp [Context.isNew, contextOf, stored_of_completed hd hleft hrow]
  · refine List.filter_eq_nil_iff.mpr ?_
    intro row hrow
    simp [Context.isChanged, contextOf, stored_of_completed hd hleft hrow]
  · refine List.filter_eq_nil_iff.mpr ?_
    intro tx htx
    simp [stored_of_distinct hleft htx]
  · refine List.filter_eq_nil_iff.mpr ?_
    intro tx htx
    simp [isChangedTransaction, stored_of_distinct hleft htx]

/-- After the last stage no block of the batch is a reorg. -/
theorem reorgIssues_stage (hd : (results.map BlockResult.number).Nodup)
    (hleft : view left = (prepared options results s).stage (view s) 3) {b : Block}
    (h : b ∈ goodBlocks results) :
    (contextOf (view left) (Backend.holder? left) options results).reorgIssues
      (rowOf options b) = [] := by
  have stored := stored_of_completed hd hleft (List.mem_map_of_mem h)
  rw [Context.complete_number, rowOf_number] at stored
  simp [Context.reorgIssues, contextOf, stored]

/-- After the last stage no transaction of the batch moves. -/
theorem storedMoves_stage (hleft : view left = (prepared options results s).stage (view s) 3)
    {tx : TransactionRow} (h : tx ∈ distinct (transactionsOf options (goodBlocks results))) :
    storedMoves (view left).transaction? tx = [] := by
  simp [storedMoves, stored_of_distinct hleft h, issuesOver, movedIssue]

end Stage

/-! ## Replay after a crash -/

/-- Results classified and persisted. -/
def pass (options : ClassifyOptions) (results : List BlockResult) : Checked σ Nat := do
  let batch ← prepare options results
  batch.persist.checked

theorem pass_on (options : ClassifyOptions) {results : List BlockResult} {s : σ}
    (fits : TimesFit (view s) results) :
    (pass options results).on s = (prepared options results s).persist.checked.on s :=
  Effect.on_bind_ok (prepare_ok fits)

/-- A pass goes through some of the stages of its batch, or none where it breaks off. -/
theorem pass_leaves (options : ClassifyOptions) (results : List BlockResult) (s : σ) :
    ∃ k, view ((pass options results).on s).2 =
      (prepared options results s).stage (view s) k := by
  by_cases fits : TimesFit (view s) results
  case neg => exact ⟨0, by rw [pass, Effect.on_bind_error (prepare_overflow fits)]; rfl⟩
  rw [pass_on options fits, Effect.on_checked]
  rcases persist_on (prepared options results s) s with
    ⟨s', done, left, _⟩ | ⟨_, k, _, s', reason, fails, left⟩
  · exact ⟨3, by rw [done]; exact left⟩
  · exact ⟨k, by rw [fails]; exact left⟩

/-- A pass that is done persists what it classifies. -/
theorem of_pass_ok {options : ClassifyOptions} {results : List BlockResult} {s s₁ : σ} {i : Nat}
    (done : (pass options results).on s = (.ok i, s₁)) :
    TimesFit (view s) results ∧ (prepared options results s).persist.on s = (.ok i, s₁) := by
  obtain ⟨batch, _, classified, persisted⟩ := Effect.of_bind_ok done
  obtain ⟨fits, rfl, rfl⟩ := of_prepare_ok classified
  exact ⟨fits, Effect.of_checked_ok persisted⟩

/-- Results are classified unless their times do not fit.  Where persisting the batch breaks off
after any of its writes, and the same results are classified and persisted again, the tables are
those of the unbroken run.  Where all writes were done before, there is nothing new and nothing
changed.  In a sturdy store all of this succeeds. -/
theorem replay_after_crash (options : ClassifyOptions) (results : List BlockResult) (s : σ)
    (hd : (results.map BlockResult.number).Nodup) (k : Nat) :
    ((prepare options results).on s = (.error .overflow, s) ∧ ¬ TimesFit (view s) results) ∨
    ∃ batch, (prepare options results).on s = (.ok batch, s) ∧
      (∀ i whole left, batch.persist.on s = (.ok i, whole) →
        (batch.persistFirst k).on s = (.ok (), left) →
        ∃ again, (prepare options results).on left = (.ok again, left) ∧
          (∀ j replayed, again.persist.on left = (.ok j, replayed) →
            (view replayed).block? = (view whole).block? ∧
            (view replayed).transaction? = (view whole).transaction?) ∧
          (3 ≤ k → again.newBlocks = [] ∧ again.changedBlocks = [] ∧
            again.newTransactions = [] ∧ again.changedTransactions = [])) ∧
      (Sturdy s → ∃ i j whole left again replayed, batch.persist.on s = (.ok i, whole) ∧
        (batch.persistFirst k).on s = (.ok (), left) ∧
        (prepare options results).on left = (.ok again, left) ∧
        again.persist.on left = (.ok j, replayed)) := by
  by_cases fits : TimesFit (view s) results
  case neg => exact .inl ⟨prepare_overflow fits, fits⟩
  -- the times fit again, whatever the broken pass has left
  have again {left : σ} (hleft : ((prepared options results s).persistFirst k).on s = (.ok (), left)) :
      (prepare options results).on left = (.ok (prepared options results left), left) :=
    prepare_ok ((timesFit_stage hd (persistFirst_ok hleft)).mpr fits)
  refine .inr ⟨_, prepare_ok fits, ?_, ?_⟩
  · intro i whole left hwhole hleft
    obtain ⟨_, vwhole, _⟩ := persist_ok hwhole
    have vleft := persistFirst_ok hleft
    refine ⟨_, again hleft, ?_, ?_⟩
    · intro j replayed hreplayed
      obtain ⟨_, vreplayed, _⟩ := persist_ok hreplayed
      rw [vreplayed, vwhole]
      exact replay_stage hd vleft
    · intro all
      rw [stage_of_le _ _ all] at vleft
      exact prepared_empty hd vleft
  · intro hs
    obtain ⟨whole, hwhole, _⟩ := (prepared options results s).persist_of_sturdy hs
    rcases persistFirst_on (prepared options results s) s k with
      ⟨left, hleft, _, sturdy⟩ | ⟨frail, _⟩
    case inr => exact absurd hs frail
    obtain ⟨replayed, hreplayed, _⟩ :=
      (prepared options results left).persist_of_sturdy (sturdy hs)
    exact ⟨_, _, whole, left, _, replayed, hwhole, hleft, again hleft, hreplayed⟩

/-- Two blocks with one hash. -/
def twins : List BlockResult :=
  [⟨1, some { number := "0x1", hash := "0xab" }, none, none, 0⟩,
    ⟨2, some { number := "0x2", hash := "0xab" }, none, none, 0⟩]

theorem twins_fit : TimesFit (view ({} : MemoryStore)) twins := by decide +kernel

theorem replay_after_crash_of_twins :
    (twins.map BlockResult.number).Nodup ∧
      ∃ (batch again : Batch) (whole left replayed : MemoryStore) (i j : Nat),
        (prepare ⟨true, true⟩ twins).on ({} : MemoryStore) = (.ok batch, {}) ∧
        batch.persist.on ({} : MemoryStore) = (.ok i, whole) ∧
        (batch.persistFirst 2).on ({} : MemoryStore) = (.ok (), left) ∧
        (prepare ⟨true, true⟩ twins).on left = (.ok again, left) ∧
        again.persist.on left = (.ok j, replayed) ∧
        (view replayed).block? = (view whole).block? ∧
        (view replayed).transaction? = (view whole).transaction? := by
  rcases replay_after_crash ⟨true, true⟩ twins ({} : MemoryStore) (by decide) 2 with
    ⟨_, unfit⟩ | ⟨batch, prepared, same, succeeds⟩
  case inl => exact absurd twins_fit unfit
  obtain ⟨i, j, whole, left, again, replayed, hwhole, hleft, hagain, hreplayed⟩ := succeeds rfl
  obtain ⟨again', hagain', tables, _⟩ := same i whole left hwhole hleft
  cases hagain.symm.trans hagain'
  exact ⟨by decide, batch, again, whole, left, replayed, i, j, prepared, hwhole, hleft, hagain,
    hreplayed, tables j replayed hreplayed⟩

/-- A store that a broken write leaves is one of the stages, so the replay repairs it too: it
reaches the tables that the broken run was about to leave. -/
theorem replay_after_failure (options : ClassifyOptions) {results : List BlockResult}
    {s left resumed : σ} {fault : CrawlFault} (hd : (results.map BlockResult.number).Nodup)
    (broken : (pass options results).on s = (.error (.fault fault), left))
    (same : view resumed = view left)
    (hs : Sturdy resumed) :
    let whole := (prepared options results s).stage (view s) 3
    ∃ j replayed, (pass options results).on resumed = (.ok j, replayed) ∧
      (view replayed).block? = whole.block? ∧
      (view replayed).transaction? = whole.transaction? := by
  intro whole
  by_cases fits : TimesFit (view s) results
  case neg => cases (Effect.on_bind_error (prepare_overflow fits)).symm.trans broken
  rw [pass_on options fits] at broken
  rcases persist_on (prepared options results s) s with
    ⟨_, done, _⟩ | ⟨_, k, _, left', reason, fails, vleft⟩
  · rw [Effect.on_checked_ok done] at broken
    cases broken
  · rw [Effect.on_checked_error fails] at broken
    cases broken
    obtain ⟨replayed, hreplayed, vreplayed, _⟩ :=
      (prepared options results resumed).persist_of_sturdy hs
    have fits := (timesFit_stage hd (same.trans vleft)).mpr fits
    refine ⟨_, replayed, (pass_on options fits).trans (Effect.on_checked_ok hreplayed), ?_⟩
    rw [vreplayed]
    exact replay_stage hd (same.trans vleft)

/-! ## Evidence of a replay -/

section Evidence

variable {c d : Context} {hashes : List (String × UInt64)} {row : BlockRow} {log : List Issue}

/-- A row has an issue for each other number that the store or the batch names for its hash. -/
theorem mem_hashIssues {issue : Issue} :
    issue ∈ hashIssues c hashes row ↔
      ∃ n, n ≠ row.number ∧ issue = Issue.duplicatedBlockHash row.hash row.number n ∧
        (c.owner? row.hash = some n ∨
          (lastWith? Prod.fst hashes row.hash).map Prod.snd = some n) := by
  simp only [hashIssues, List.mem_append]
  constructor
  · rintro (h | h)
    · cases owner : c.owner? row.hash with
      | none => simp [owner] at h
      | some n =>
        simp only [owner] at h
        split at h
        case isTrue other => exact ⟨n, other, List.mem_singleton.mp h, .inl rfl⟩
        case isFalse => cases h
    · cases earlier : lastWith? Prod.fst hashes row.hash with
      | none => simp [earlier] at h
      | some entry =>
        simp only [earlier] at h
        split at h
        case isTrue other =>
          simp only [Bool.and_eq_true, decide_eq_true_eq] at other
          exact ⟨entry.2, other.1, List.mem_singleton.mp h, .inr rfl⟩
        case isFalse => cases h
  · rintro ⟨n, other, rfl, owner | earlier⟩
    · left
      simp [owner, other]
    · obtain ⟨entry, hentry, rfl⟩ := Option.map_eq_some_iff.mp earlier
      by_cases owner : c.owner? row.hash = some entry.2
      · left
        simp [owner, other]
      · right
        simp [hentry, other, owner]

/-- Where the evidence of one context is on record, that of another one is too, apart from the
numbers that the store names there. -/
theorem recorded_hashIssues_iff (h : ∀ i ∈ hashIssues c hashes row, Recorded log i) :
    (∀ i ∈ hashIssues d hashes row, Recorded log i) ↔
      ∀ n, d.owner? row.hash = some n → n ≠ row.number →
        Recorded log (Issue.duplicatedBlockHash row.hash row.number n) := by
  constructor
  · intro all n owner other
    exact all _ (mem_hashIssues.mpr ⟨n, other, rfl, .inl owner⟩)
  · intro named i hi
    obtain ⟨n, other, rfl, owner | earlier⟩ := mem_hashIssues.mp hi
    · exact named n owner other
    · exact h _ (mem_hashIssues.mpr ⟨n, other, rfl, .inr earlier⟩)

/-- The same for all blocks of a batch, where none is a reorg in the second context. -/
theorem recorded_blockIssues_iff (options : ClassifyOptions) {seen : List TransactionRow}
    {blocks : List Block} (h : ∀ i ∈ blockIssues c options hashes seen blocks, Recorded log i)
    (settled : ∀ b ∈ blocks, d.reorgIssues (rowOf options b) = []) :
    (∀ i ∈ blockIssues d options hashes seen blocks, Recorded log i) ↔
      ∀ row ∈ blocks.map (rowOf options), ∀ n, d.owner? row.hash = some n → n ≠ row.number →
        Recorded log (Issue.duplicatedBlockHash row.hash row.number n) := by
  induction blocks generalizing hashes seen with
  | nil => simp [blockIssues]
  | cons b rest ih =>
    simp only [blockIssues, List.forall_mem_append] at h ⊢
    obtain ⟨⟨⟨hhash, hmoves⟩, _⟩, hrest⟩ := h
    have behind := ih hrest fun x hx => settled x (List.mem_cons_of_mem b hx)
    rw [recorded_hashIssues_iff hhash, settled b List.mem_cons_self, behind, List.map_cons,
      List.forall_mem_cons]
    constructor
    · rintro ⟨⟨⟨here, _⟩, _⟩, there⟩
      exact ⟨here, there⟩
    · rintro ⟨here, there⟩
      exact ⟨⟨⟨here, hmoves⟩, List.forall_mem_nil _⟩, there⟩

end Evidence

/-- Where a store names another number for the hash of a row, that is on record. -/
def HoldersRecorded (s : σ) (log : List Issue) (rows : List BlockRow) : Prop :=
  ∀ row ∈ rows, ∀ n, Backend.holder? s row.hash = some n → n ≠ row.number →
    Recorded log (Issue.duplicatedBlockHash row.hash row.number n)

section Window

variable {options : ClassifyOptions} {results : List BlockResult} {s s₁ s₂ : σ} {i j : Nat}

/-- After the last stage only the numbers that the store names can be new evidence. -/
theorem recorded_replay_iff {log : List Issue} (hd : (results.map BlockResult.number).Nodup)
    (hview : view s₁ = (prepared options results s).stage (view s) 3)
    (known : ∀ i ∈ (prepared options results s).issues, Recorded log i) :
    (∀ i ∈ (prepared options results s₁).issues, Recorded log i) ↔
      HoldersRecorded s₁ log (openRows options results) := by
  simp only [prepared, classified, List.forall_mem_append] at known
  obtain ⟨⟨failures, blocks⟩, _⟩ := known
  have settled (b : Block) (hb : b ∈ goodBlocks results) :
      (contextOf (view s₁) (Backend.holder? s₁) options results).reorgIssues
        (rowOf options b) = [] := reorgIssues_stage hd hview hb
  have moves : (distinct (transactionsOf options (goodBlocks results))).flatMap
      (storedMoves (view s₁).transaction?) = [] :=
    List.flatMap_eq_nil_iff.mpr fun tx htx => storedMoves_stage hview htx
  simp only [prepared, classified, List.forall_mem_append, moves,
    recorded_blockIssues_iff options blocks settled]
  constructor
  · rintro ⟨⟨_, named⟩, _⟩
    exact named
  · intro named
    exact ⟨⟨failures, named⟩, List.forall_mem_nil _⟩

/-- What a pass leaves: the last stage, where its own issues are on record. -/
theorem pass_ok (h : (pass options results).on s = (.ok i, s₁)) :
    TimesFit (view s) results ∧
    i = (appendIssues (view s).log (prepared options results s).issues).1 ∧
    view s₁ = (prepared options results s).stage (view s) 3 ∧
    (∀ issue ∈ (prepared options results s).issues, Recorded (view s₁).log issue) ∧
    ((view s₁).block? = (view s).block? → Backend.holder? s₁ = Backend.holder? s) := by
  obtain ⟨fits, persisted⟩ := of_pass_ok h
  obtain ⟨hi, hview, hholder⟩ := persist_ok persisted
  refine ⟨fits, hi, hview, ?_, hholder⟩
  intro issue hissue
  rw [hview, log_stage]
  exact recorded_appendIssues.mpr (.inr (.of_mem hissue))

/-- A replay of a window leaves the tables as they are, and adds no issue just where the numbers
that the store names for the hashes of the window are those of its rows, or are on record. -/
theorem replay_inserts_none_iff (options : ClassifyOptions) {results : List BlockResult}
    {s s₁ : σ} {i : Nat} (hd : (results.map BlockResult.number).Nodup)
    (first : (pass options results).on s = (.ok i, s₁)) :
    (∀ j s₂, (pass options results).on s₁ = (.ok j, s₂) →
      (view s₂).block? = (view s₁).block? ∧ (view s₂).transaction? = (view s₁).transaction? ∧
      (j = 0 ↔ HoldersRecorded s₁ (view s₁).log (openRows options results)) ∧
      ((view s₂).log = (view s₁).log ↔
        HoldersRecorded s₁ (view s₁).log (openRows options results))) ∧
    (Sturdy s₁ → ∃ j s₂, (pass options results).on s₁ = (.ok j, s₂)) := by
  obtain ⟨fits, _, hview, known, _⟩ := pass_ok first
  constructor
  · intro j s₂ second
    obtain ⟨_, hj, hview₂, _⟩ := pass_ok second
    obtain ⟨blocks, transactions⟩ := replay_stage hd hview
    have none_added := recorded_replay_iff hd hview known
    rw [← appendIssues_eq_zero_iff, ← hj] at none_added
    refine ⟨?_, ?_, none_added, ?_⟩
    · rw [hview₂, blocks, hview]
    · rw [hview₂, transactions, hview]
    · rw [← none_added, hview₂, log_stage, if_neg (by decide)]
      have grown := length_appendIssues (view s₁).log (prepared options results s₁).issues
      rw [← hj] at grown
      constructor
      · intro same
        rw [same] at grown
        omega
      · intro none
        rw [appendIssues_of_recorded (appendIssues_eq_zero_iff.mp (hj.symm.trans none))]
  · intro hs
    obtain ⟨s₂, second, _⟩ := (prepared options results s₁).persist_of_sturdy hs
    have fits := (timesFit_stage hd hview).mpr fits
    exact ⟨_, s₂, (pass_on options fits).trans (Effect.on_checked_ok second)⟩

/-- In the order 1, 2 the store names 2 for the first twin once both are stored, and that pair
is new: the replay adds an issue. -/
theorem replay_of_twins_inserts_one :
    (twins.map BlockResult.number).Nodup ∧
      ∃ s₁ s₂ : MemoryStore, (pass ⟨false, false⟩ twins).on ({} : MemoryStore) = (.ok 1, s₁) ∧
        (pass ⟨false, false⟩ twins).on s₁ = (.ok 1, s₂) ∧ s₂.log ≠ s₁.log := by
  have first := (pass_on ⟨false, false⟩ twins_fit).trans
    (Effect.on_of_toOption (a := 1) (by decide +kernel))
  have fits := (timesFit_stage (by decide) (pass_ok first).2.2.1).mpr twins_fit
  have second := (pass_on ⟨false, false⟩ fits).trans
    (Effect.on_of_toOption (a := 1) (by decide +kernel))
  exact ⟨by decide, _, _, first, second, fun same =>
    absurd (congrArg List.length same) (by decide +kernel)⟩

/-- In the order 2, 1 the first pass has put the same pair on record. -/
theorem replay_of_reversed_twins_inserts_none :
    (twins.reverse.map BlockResult.number).Nodup ∧
      ∃ s₁ s₂ : MemoryStore,
        (pass ⟨false, false⟩ twins.reverse).on ({} : MemoryStore) = (.ok 1, s₁) ∧
        (pass ⟨false, false⟩ twins.reverse).on s₁ = (.ok 0, s₂) ∧
        HoldersRecorded s₁ (view s₁).log (openRows ⟨false, false⟩ twins.reverse) := by
  have fits : TimesFit (view ({} : MemoryStore)) twins.reverse := by decide +kernel
  have first := (pass_on ⟨false, false⟩ fits).trans
    (Effect.on_of_toOption (a := 1) (by decide +kernel))
  obtain ⟨exact_condition, succeeds⟩ := replay_inserts_none_iff ⟨false, false⟩ (by decide) first
  obtain ⟨j, s₂, second⟩ := succeeds rfl
  have found := congrArg (fun r => r.1.toOption) ((pass_on _ (by decide +kernel)).symm.trans second)
  obtain rfl : j = 0 := Option.some.inj (found.symm.trans (by decide +kernel))
  exact ⟨by decide, _, s₂, first, second, (exact_condition 0 s₂ second).2.2.1.mp rfl⟩

/-- From the second replay on nothing is added to the log. -/
theorem later_replay_inserts_none (hd : (results.map BlockResult.number).Nodup)
    (first : (pass options results).on s = (.ok i, s₁))
    (second : (pass options results).on s₁ = (.ok j, s₂)) (hs : Sturdy s₂) :
    ∃ s₃, (pass options results).on s₂ = (.ok 0, s₃) ∧ (view s₃).log = (view s₂).log := by
  obtain ⟨_, _, hview, known, _⟩ := pass_ok first
  obtain ⟨fits, _, hview₂, known₂, holders⟩ := pass_ok second
  obtain ⟨s₃, third, hview₃, _⟩ := (prepared options results s₂).persist_of_sturdy hs
  have blocks : (view s₂).block? = (view s₁).block? := by
    rw [hview₂, (replay_stage hd hview).1, hview]
  have kept : ∀ i ∈ (prepared options results s).issues, Recorded (view s₂).log i := by
    intro i hi
    rw [hview₂, log_stage]
    exact recorded_appendIssues.mpr (.inl (known i hi))
  -- the second pass has put what the store names on record, and the store names the same still
  have recorded : HoldersRecorded s₂ (view s₂).log (openRows options results) := by
    rw [HoldersRecorded, holders blocks]
    exact (recorded_replay_iff hd hview kept).mp known₂
  have all := (recorded_replay_iff hd hview₂ known₂).mpr recorded
  rw [appendIssues_of_recorded all] at third
  have fits := (timesFit_stage hd hview₂).mpr fits
  refine ⟨s₃, (pass_on options fits).trans (Effect.on_checked_ok third), ?_⟩
  rw [hview₃, log_stage, if_neg (by decide), appendIssues_of_recorded all]

end Window

end ChainIndex.Batch
