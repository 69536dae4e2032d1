import ChainIndex.Proofs.Batch.Quiet
import ChainIndex.Proofs.Batch.Repeats
import ChainIndex.Proofs.Evidence.Digest
import ChainIndex.Proofs.Store.Steady

/-!
# The order of given blocks

Where no two verified blocks of a list have one number, the order of the list does not matter for
the table of blocks, for the reorgs that are added to the log, and for what the report counts.  The
time of the block before is looked up among all blocks of the list (`timeBefore?_of_perm`), so a row
comes out the same wherever its block stands.

It does matter for a transaction that is in two blocks, of which the last one counts, and for the
issues of hashes that are shared.  Neither changes whether there are issues at all
(`issues_eq_nil_iff`), so a store that refuses to write them refuses for every order.
-/

namespace ChainIndex

namespace Batch

/-! ## The issues of a batch -/

section Issues

variable {v : View} {holder? : String → Option UInt64} {options : ClassifyOptions}
  {results : List BlockResult} {issue : Issue}

theorem made_of_issuesOver {old : Option TransactionRow} {tx : TransactionRow}
    (h : issue ∈ issuesOver old tx) : issue.Made := by
  cases old with
  | none => cases h
  | some old =>
    rw [issuesOver, movedIssue] at h
    split at h
    case isTrue =>
      obtain rfl := List.mem_singleton.mp h
      exact .duplicatedTxHash tx.hash tx.blockNumber tx.blockHash old.blockNumber old.blockHash 0
    case isFalse => cases h

theorem made_of_moves {seen txs : List TransactionRow} (h : issue ∈ moves seen txs) :
    issue.Made := by
  induction txs generalizing seen with
  | nil => cases h
  | cons tx rest ih =>
    rw [moves] at h
    exact (List.mem_append.mp h).elim made_of_issuesOver ih

theorem made_of_blockIssues {c : Context} {hashes : List (String × UInt64)}
    {seen : List TransactionRow} {blocks : List Block}
    (h : issue ∈ blockIssues c options hashes seen blocks) : issue.Made := by
  induction blocks generalizing hashes seen with
  | nil => cases h
  | cons b rest ih =>
    simp only [blockIssues, List.mem_append] at h
    rcases h with ((h | h) | h) | h
    · obtain ⟨n, _, rfl, _⟩ := mem_hashIssues.mp h
      exact .duplicatedBlockHash _ _ n 0
    · exact made_of_moves h
    · obtain ⟨old, _, _, rfl⟩ := mem_reorgIssues.mp h
      exact .reorg _ old.hash _ 0
    · exact ih h

/-- All issues of a batch are made for evidence. -/
theorem made_of_mem_issues (h : issue ∈ (classified v holder? options results).issues) :
    issue.Made := by
  rcases List.mem_append.mp h with h | h
  · rcases List.mem_append.mp h with h | h
    · obtain ⟨r, _, failed⟩ := List.mem_filterMap.mp h
      obtain ⟨reason, rfl⟩ := eq_failure_of_siftIssue failed
      exact .failure r.number "" "" reason 0
    · exact made_of_blockIssues h
  · obtain ⟨tx, _, h⟩ := List.mem_flatMap.mp h
    exact made_of_issuesOver h

/-- The reorg issues of a batch are those of its blocks. -/
theorem mem_issues_iff_of_reorg (kind : issue.kind = .reorg) :
    issue ∈ (classified v holder? options results).issues ↔
      ∃ b ∈ goodBlocks results, v.reorg? b.numberWord b.hashNormalized = some issue := by
  constructor
  · intro h
    obtain ⟨b, hb, h⟩ := mem_issues_of_kind_reorg h kind
    rw [reorgIssues_rowOf, Option.mem_toList] at h
    exact ⟨b, hb, h⟩
  · rintro ⟨b, hb, h⟩
    exact mem_issues_of_reorg hb (by rwa [reorgIssues_rowOf, Option.mem_toList])

/-- The digests of two issues of a batch collide. -/
def Colliding (b : Batch) : Prop := ∃ i ∈ b.issues, ∃ j ∈ b.issues, i.Collide j

/-- Where no number is good twice and no digests collide, no other issue of a batch has the checksum
of a reorg. -/
theorem eq_reorg_of_checksum (distinct : ((goodBlocks results).map Block.numberWord).Nodup)
    (apart : ¬ (classified v holder? options results).Colliding) {i j : Issue}
    (kind : i.kind = .reorg) (hi : i ∈ (classified v holder? options results).issues)
    (hj : j ∈ (classified v holder? options results).issues) (same : j.checksum = i.checksum) :
    j = i := by
  obtain ⟨a, ha, hai⟩ := (mem_issues_iff_of_reorg kind).mp hi
  obtain ⟨old, _, _, rfl⟩ := View.reorg?_eq_some.mp hai
  rcases (made_of_mem_issues hj).sameEvidence_of_checksum (made_of_mem_issues hi) same with
    evidence | shifted | collide
  · obtain ⟨b, hb, hbj⟩ := (mem_issues_iff_of_reorg (evidence.kind.trans kind)).mp hj
    obtain ⟨_, _, _, rfl⟩ := View.reorg?_eq_some.mp hbj
    obtain rfl := List.inj_on_of_nodup_map distinct hb ha evidence.blockNumber
    exact Option.some.inj (hbj.symm.trans hai)
  · -- bytes shift between a transaction and a block, and a reorg has no transaction
    obtain ⟨b, _, hbj⟩ := (mem_issues_iff_of_reorg (shifted.kind.trans kind)).mp hj
    obtain ⟨_, _, _, rfl⟩ := View.reorg?_eq_some.mp hbj
    exact absurd shifted.txBytes_ne (by simp [Issue.reorg, Issue.make, Issue.hashBytes])
  · exact absurd ⟨j, hj, _, hi, collide⟩ apart

end Issues

/-! ## Results in another order -/

section Perm

variable {v : View} {holder? : String → Option UInt64} {options : ClassifyOptions}
  {results others : List BlockResult}

theorem goodBlocks_perm (perm : results.Perm others) :
    (goodBlocks results).Perm (goodBlocks others) := perm.filterMap _

/-- Duplicate numbers aside, the order of the blocks does not matter for the time before one. -/
theorem timeBefore?_of_perm (perm : results.Perm others)
    (distinct : ((goodBlocks results).map Block.numberWord).Nodup) :
    timeBefore? v results = timeBefore? v others := by
  funext n
  rw [timeBefore?, timeBefore?, lastWith?_perm distinct (goodBlocks_perm perm)]

/-- Nor does it matter for the times to fit. -/
theorem timesFit_of_perm (perm : results.Perm others)
    (distinct : ((goodBlocks results).map Block.numberWord).Nodup) :
    TimesFit v results ↔ TimesFit v others := by
  rw [TimesFit, TimesFit, timeBefore?_of_perm perm distinct]
  exact forall_congr' fun b => by rw [(goodBlocks_perm perm).mem_iff]

/-- Nor for a duration. -/
theorem complete_of_perm (perm : results.Perm others)
    (distinct : ((goodBlocks results).map Block.numberWord).Nodup) :
    (contextOf v holder? options results).complete = (contextOf v holder? options others).complete := by
  funext row
  simp only [Context.complete, Context.mintDuration, parentTime?_contextOf,
    timeBefore?_of_perm perm distinct]

theorem resultRows_perm (perm : results.Perm others)
    (distinct : ((goodBlocks results).map Block.numberWord).Nodup) :
    (resultRows v options results).Perm (resultRows v options others) := by
  rw [resultRows_eq, resultRows_eq, completedRows, completedRows, complete_of_perm perm distinct]
  exact (goodBlocks_perm perm).map _

theorem Quiet.of_perm (perm : results.Perm others) {txs txs' : List TransactionRow}
    (hp : txs.Perm txs') (h : Quiet v holder? results txs) : Quiet v holder? others txs' := by
  have good := goodBlocks_perm perm
  constructor
  case failures => exact fun r hr => h.failures r (perm.mem_iff.mpr hr)
  case reorgs => exact fun b hb => h.reorgs b (good.mem_iff.mpr hb)
  case holders => exact fun b hb => h.holders b (good.mem_iff.mpr hb)
  case hashes => exact fun a ha b hb => h.hashes a (good.mem_iff.mpr ha) b (good.mem_iff.mpr hb)
  case inPlace => exact fun x hx y hy => h.inPlace x (hp.mem_iff.mpr hx) y (hp.mem_iff.mpr hy)
  case stored => exact fun x hx => h.stored x (hp.mem_iff.mpr hx)

theorem quiet_iff_of_perm (perm : results.Perm others) {txs txs' : List TransactionRow}
    (hp : txs.Perm txs') : Quiet v holder? results txs ↔ Quiet v holder? others txs' :=
  ⟨.of_perm perm hp, .of_perm perm.symm hp.symm⟩

theorem transactionsOf_perm {blocks blocks' : List Block} (perm : blocks.Perm blocks') :
    (transactionsOf options blocks).Perm (transactionsOf options blocks') := by
  rw [transactionsOf, transactionsOf]
  split
  · exact perm.flatMap_right _
  · exact .refl _

/-- Whether a batch has issues does not depend on the order. -/
theorem issues_isEmpty_of_perm (perm : results.Perm others) :
    (classified v holder? options results).issues.isEmpty =
      (classified v holder? options others).issues.isEmpty := by
  rw [Bool.eq_iff_iff, List.isEmpty_iff, List.isEmpty_iff, issues_eq_nil_iff, issues_eq_nil_iff]
  exact quiet_iff_of_perm perm (transactionsOf_perm (goodBlocks_perm perm))

/-- What two batches have in common, whatever becomes of their transactions. -/
structure SameBlocks (v : View) (b c : Batch) : Prop where
  newBlocks : b.newBlocks.Perm c.newBlocks
  changedBlocks : b.changedBlocks.Perm c.changedBlocks
  failed : b.failed.Perm c.failed
  reorgs : b.reorgs = c.reorgs
  silent : b.issues.isEmpty = c.issues.isEmpty
  reorgIssues : ∀ issue : Issue, issue.kind = .reorg → (issue ∈ b.issues ↔ issue ∈ c.issues)
  table : (b.stage v 3).block? = (c.stage v 3).block?

theorem sameBlocks_of_perm (perm : results.Perm others)
    (distinct : ((goodBlocks results).map Block.numberWord).Nodup) :
    SameBlocks v (classified v holder? options results) (classified v holder? options others) := by
  have good := goodBlocks_perm perm
  have rows : (resultRows v options results).Perm (resultRows v options others) :=
    resultRows_perm perm distinct
  refine ⟨?_, ?_, (perm.filter _).map _, ?_, issues_isEmpty_of_perm perm, ?_, ?_⟩
  · rw [newBlocks_classified, newBlocks_classified]
    exact rows.filter _
  · rw [changedBlocks_classified, changedBlocks_classified]
    exact rows.filter _
  · rw [reorgs_classified, reorgs_classified]
    exact (good.filterMap _).length_eq
  · intro issue kind
    rw [mem_issues_iff_of_reorg kind, mem_issues_iff_of_reorg kind]
    exact exists_congr fun b => and_congr_left fun _ => good.mem_iff
  · funext n
    have numbers : (resultRows v options results).map BlockRow.number =
        (goodBlocks results).map Block.numberWord := by
      rw [resultRows_eq, completedRows, List.map_map]
      exact List.map_congr_left fun b _ => rowOf_number options b
    rw [block?_stage_last_of_repeats, block?_stage_last_of_repeats,
      lastWith?_perm ?_ (rows.filter _)]
    exact (numbers ▸ distinct).sublist (List.filter_sublist.map _)

end Perm

/-! ## Transactions in one block -/

/-- Two blocks have no transaction in common. -/
def Apart (a b : Block) : Prop :=
  ∀ x ∈ a.transactionRows, ∀ y ∈ b.transactionRows, x.hash ≠ y.hash

/-- Blocks of which at most one has items for a key have the same items in any order. -/
theorem flatMap_eq_of_perm {α β : Type} {f : α → List β} {xs ys : List α} (perm : xs.Perm ys)
    (alone : xs.Pairwise fun a b => f a = [] ∨ f b = []) : xs.flatMap f = ys.flatMap f := by
  induction perm with
  | nil => rfl
  | cons a _ ih =>
    rw [List.flatMap_cons, List.flatMap_cons, ih (List.pairwise_cons.mp alone).2]
  | swap a b rest =>
    have pair := (List.pairwise_cons.mp alone).1 a List.mem_cons_self
    simp only [List.flatMap_cons]
    rcases pair with none | none <;> rw [none] <;> simp
  | trans first _ ih ih' =>
    have between := (first.pairwise_iff (fun h => h.symm)).mp alone
    exact (ih alone).trans (ih' between)

/-- The last transaction of each hash does not depend on the order of blocks that have none in
common. -/
theorem lastWith?_transactionsOf_perm (options : ClassifyOptions) {blocks others : List Block}
    (perm : blocks.Perm others) (apart : blocks.Pairwise Apart) (hash : String) :
    lastWith? TransactionRow.hash (transactionsOf options blocks) hash =
      lastWith? TransactionRow.hash (transactionsOf options others) hash := by
  rw [transactionsOf, transactionsOf]
  split
  case isFalse => rfl
  case isTrue =>
    refine lastWith?_congr ?_
    rw [List.filter_flatMap, List.filter_flatMap]
    refine flatMap_eq_of_perm perm (apart.imp ?_)
    intro a b separate
    by_contra both
    obtain ⟨someA, someB⟩ := not_or.mp both
    obtain ⟨x, hx⟩ := List.exists_mem_of_ne_nil _ someA
    obtain ⟨y, hy⟩ := List.exists_mem_of_ne_nil _ someB
    obtain ⟨hx, hashX⟩ := List.mem_filter.mp hx
    obtain ⟨hy, hashY⟩ := List.mem_filter.mp hy
    exact separate x hx y hy ((of_decide_eq_true hashX).trans (of_decide_eq_true hashY).symm)

/-- What two batches have in common in their transactions. -/
structure SameTransactions (v : View) (b c : Batch) : Prop where
  new : b.newTransactions.isEmpty = c.newTransactions.isEmpty
  changed : b.changedTransactions.isEmpty = c.changedTransactions.isEmpty
  table : (b.stage v 3).transaction? = (c.stage v 3).transaction?

theorem sameTransactions_of_perm {v : View} {holder? : String → Option UInt64}
    {options : ClassifyOptions} {results others : List BlockResult} (perm : results.Perm others)
    (apart : (goodBlocks results).Pairwise Apart) :
    SameTransactions v (classified v holder? options results)
      (classified v holder? options others) := by
  have last := lastWith?_transactionsOf_perm options (goodBlocks_perm perm) apart
  have mem (tx : TransactionRow) : tx ∈ distinct (transactionsOf options (goodBlocks results)) ↔
      tx ∈ distinct (transactionsOf options (goodBlocks others)) := by
    rw [mem_distinct_iff, mem_distinct_iff, last]
  have filtered (p : TransactionRow → Bool) :
      ((distinct (transactionsOf options (goodBlocks results))).filter p).isEmpty =
        ((distinct (transactionsOf options (goodBlocks others))).filter p).isEmpty := by
    rw [Bool.eq_iff_iff, List.isEmpty_iff, List.isEmpty_iff, List.filter_eq_nil_iff,
      List.filter_eq_nil_iff]
    simp only [mem]
  refine ⟨filtered _, filtered _, ?_⟩
  funext hash
  rw [transaction?_stage_last, transaction?_stage_last, last]

/-! ## How far two batches get -/

section Reached

variable {v : View} {b c : Batch} (reason? : FailPoint → Option String)

theorem SameBlocks.issuesRefused_eq (h : SameBlocks v b c) :
    b.issuesRefused reason? = c.issuesRefused reason? := by
  rw [issuesRefused, issuesRefused, h.silent]

theorem SameBlocks.blocksRefused_eq (h : SameBlocks v b c) :
    b.blocksRefused reason? = c.blocksRefused reason? := by
  rw [blocksRefused, blocksRefused, h.newBlocks.isEmpty_eq, h.changedBlocks.isEmpty_eq]

/-- The stage that a batch reaches. -/
def reached (b : Batch) : Nat := ((b.brokenAt? reason?).map Prod.fst).getD 3

theorem reached_cases (h : SameBlocks v b c) :
    b.reached reason? = c.reached reason? ∨ (2 ≤ b.reached reason? ∧ 2 ≤ c.reached reason?) := by
  rw [reached, reached, brokenAt?, brokenAt?, h.issuesRefused_eq, h.blocksRefused_eq]
  cases c.issuesRefused reason? with
  | some reason => exact .inl rfl
  | none =>
    cases c.blocksRefused reason? with
    | some reason => exact .inl rfl
    | none =>
      right
      cases b.transactionsRefused reason? <;> cases c.transactionsRefused reason? <;> simp

theorem brokenAt?_eq (h : SameBlocks v b c) (same : SameTransactions v b c) :
    b.brokenAt? reason? = c.brokenAt? reason? := by
  have transactions : b.transactionsRefused reason? = c.transactionsRefused reason? := by
    rw [transactionsRefused, transactionsRefused, same.new, same.changed]
  rw [brokenAt?, brokenAt?, h.issuesRefused_eq, h.blocksRefused_eq, transactions]

theorem SameBlocks.block?_reached (h : SameBlocks v b c) :
    (b.stage v (b.reached reason?)).block? = (c.stage v (c.reached reason?)).block? := by
  rw [block?_stage b, block?_stage c, h.table]
  rcases reached_cases reason? h with same | ⟨far, far'⟩
  · rw [same]
  · rw [if_neg (by omega), if_neg (by omega)]

/-- The same reorgs are in the log, where no other issue of the one batch has the checksum of one,
and none of the other batch. -/
theorem SameBlocks.reorgs_reached (h : SameBlocks v b c)
    (alone : ∀ i : Issue, i.kind = .reorg →
      (i ∈ b.issues → ∀ j ∈ b.issues, j.checksum = i.checksum → j = i) ∧
        (i ∈ c.issues → ∀ j ∈ c.issues, j.checksum = i.checksum → j = i))
    {issue : Issue} (kind : issue.kind = .reorg) :
    issue ∈ (b.stage v (b.reached reason?)).log ↔ issue ∈ (c.stage v (c.reached reason?)).log := by
  obtain ⟨aloneB, aloneC⟩ := alone issue kind
  have added : issue ∈ (appendIssues v.log b.issues).2 ↔ issue ∈ (appendIssues v.log c.issues).2 := by
    rw [mem_appendIssues_iff aloneB, mem_appendIssues_iff aloneC, h.reorgIssues issue kind]
  rw [log_stage, log_stage]
  rcases reached_cases reason? h with same | ⟨far, far'⟩
  · rw [same]
    split
    · exact Iff.rfl
    · exact added
  · rw [if_neg (by omega), if_neg (by omega)]
    exact added

end Reached

/-! ## Writes in another order -/

theorem numberBehind_of_perm {blocks others : List Block} (perm : blocks.Perm others) :
    numberBehind blocks = numberBehind others :=
  congrArg (Option.getD · 0) (max?_of_perm (perm.filterMap _))

theorem givenFits_of_perm {v : View} {blocks others : List Block} (perm : blocks.Perm others)
    (distinct : ((goodBlocks (givenResults blocks)).map Block.numberWord).Nodup) :
    GivenFits v blocks ↔ GivenFits v others := by
  refine and_congr (forall_congr' fun b => ?_) (timesFit_of_perm (perm.map givenResult) distinct)
  rw [perm.mem_iff]

open LawfulBackend SteadyBackend

variable {σ : Type} [Backend σ] [LawfulBackend σ]

/-- What the writes of two lists of blocks to one store have in common. -/
structure WrittenAlike (options : ClassifyOptions) (s : σ) (blocks others : List Block)
    (one other : Except Halt BatchReport × σ) : Prop where
  /-- The blocks that are stored. -/
  table : (view one.2).block? = (view other.2).block?
  /-- The reorgs of the batches. -/
  reorgIssues : ∀ issue : Issue, issue.kind = .reorg →
    (issue ∈ (givenBatch options blocks s).issues ↔ issue ∈ (givenBatch options others s).issues)
  /-- The reorgs of the log, but for digests that collide. -/
  reorgs : (∀ issue : Issue, issue.kind = .reorg →
      (issue ∈ (view one.2).log ↔ issue ∈ (view other.2).log)) ∨
    (givenBatch options blocks s).Colliding ∨ (givenBatch options others s).Colliding
  /-- What is reported. -/
  counts : ∀ report report', one.1 = .ok report → other.1 = .ok report' →
    report.newBlocks = report'.newBlocks ∧ report.changedBlocks = report'.changedBlocks ∧
      report.reorgs = report'.reorgs ∧ report.failedBlocks = report'.failedBlocks ∧
      report.nextBlock = report'.nextBlock
  /-- Both break off just where the numbers or the times do not fit. -/
  overflow : (one.1 = .error .overflow ↔ ¬ GivenFits (view s) blocks) ∧
    (other.1 = .error .overflow ↔ ¬ GivenFits (view s) blocks)
  /-- In a sturdy store both are reported, where neither breaks off. -/
  succeed : Sturdy s → GivenFits (view s) blocks →
    (∃ report, one.1 = .ok report) ∧ ∃ report, other.1 = .ok report
  /-- Where no transaction is in two blocks, the transactions that are stored, and whether it is
  reported or why not. -/
  transactions : (blocks.filter Block.isVerified).Pairwise Apart →
    (view one.2).transaction? = (view other.2).transaction? ∧
      ((∃ report, one.1 = .ok report) ↔ ∃ report, other.1 = .ok report) ∧
      ∀ halt, one.1 = .error halt ↔ other.1 = .error halt

/-- Two writes that break off leave the store as it was. -/
theorem WrittenAlike.of_overflow (options : ClassifyOptions) {s : σ} {blocks others : List Block}
    (perm : blocks.Perm others)
    (distinct : ((goodBlocks (givenResults blocks)).map Block.numberWord).Nodup)
    (unfit : ¬ GivenFits (view s) blocks) :
    WrittenAlike options s blocks others (.error .overflow, s) (.error .overflow, s) where
  table := rfl
  reorgIssues := (sameBlocks_of_perm (perm.map givenResult) distinct).reorgIssues
  reorgs := .inl fun _ _ => Iff.rfl
  counts _ _ reported := nomatch reported
  overflow := ⟨iff_of_true rfl unfit, iff_of_true rfl unfit⟩
  succeed _ fits := absurd fits unfit
  transactions _ := ⟨rfl, Iff.rfl, fun _ => Iff.rfl⟩

variable [SteadyBackend σ]

/-- A write of blocks gets as far as their batch. -/
theorem writeBlocks_settled (options : ClassifyOptions) {blocks : List Block} {s : σ}
    (fits : GivenFits (view s) blocks) :
    let batch := givenBatch options blocks s
    ∃ s', (writeBlocks options blocks).on s =
        (match batch.brokenAt? (refused s) with
          | none => .ok (givenReport options blocks s (appendIssues (view s).log batch.issues).1)
          | some (_, reason) => .error (.fault (.storage reason)), s') ∧
      view s' = batch.stage (view s) (batch.reached (refused s)) := by
  intro batch
  obtain ⟨s', settled⟩ := persist_settled batch s
  rw [writeBlocks_eq options fits, reached]
  cases broken : batch.brokenAt? (refused s) with
  | none =>
    rw [broken] at settled
    obtain ⟨done, content⟩ := settled
    exact ⟨s', by rw [done], content⟩
  | some stop =>
    rw [broken] at settled
    obtain ⟨fails, content⟩ := settled
    exact ⟨s', by rw [fails], content⟩

/-- Blocks of which no two verified ones have one number are written alike in any order. -/
theorem blocks_written_alike_of_perm (options : ClassifyOptions) (s : σ) {blocks others : List Block}
    (perm : blocks.Perm others)
    (distinct : ((blocks.filter Block.isVerified).map Block.numberWord).Nodup) :
    WrittenAlike options s blocks others ((writeBlocks options blocks).on s)
      ((writeBlocks options others).on s) := by
  have given : (givenResults blocks).Perm (givenResults others) := perm.map givenResult
  have distinct' := ((perm.filter Block.isVerified).map Block.numberWord).nodup_iff.mp distinct
  rw [← goodBlocks_given] at distinct distinct'
  have both := givenFits_of_perm (v := view s) perm distinct
  by_cases fits : GivenFits (view s) blocks
  case neg =>
    rw [writeBlocks_overflow fits, writeBlocks_overflow (both.not.mp fits)]
    exact .of_overflow options perm distinct fits
  have same : SameBlocks (view s) (givenBatch options blocks s) (givenBatch options others s) :=
    sameBlocks_of_perm given distinct
  obtain ⟨left, done, content⟩ := writeBlocks_settled options fits
  obtain ⟨left', done', content'⟩ := writeBlocks_settled options (both.mp fits)
  rw [done, done']
  refine ⟨?_, same.reorgIssues, ?_, ?_, ?_, ?_, ?_⟩
  · rw [content, content']
    exact same.block?_reached (refused s)
  · by_cases apart : (givenBatch options blocks s).Colliding ∨ (givenBatch options others s).Colliding
    · exact .inr apart
    · obtain ⟨apart, apart'⟩ := not_or.mp apart
      left
      intro issue kind
      rw [content, content']
      refine same.reorgs_reached (refused s) (fun i kind => ⟨?_, ?_⟩) kind
      · exact fun hi j hj => eq_reorg_of_checksum distinct apart kind hi hj
      · exact fun hi j hj => eq_reorg_of_checksum distinct' apart' kind hi hj
  · intro report report' reported reported'
    rw [← done] at reported
    rw [← done'] at reported'
    obtain ⟨_, _, rfl⟩ := writeBlocks_ok (Prod.ext reported rfl)
    obtain ⟨_, _, rfl⟩ := writeBlocks_ok (Prod.ext reported' rfl)
    have next := numberBehind_of_perm perm
    simp only [givenReport, tally, same.newBlocks.length_eq, same.changedBlocks.length_eq,
      same.failed.length_eq, same.reorgs, next, and_self]
  · dsimp only
    constructor
    · refine iff_of_false ?_ (not_not.mpr fits)
      split <;> simp
    · refine iff_of_false ?_ (not_not.mpr fits)
      split <;> simp
  · intro sturdy _
    rw [← done, ← done']
    obtain ⟨report, _, reported, _⟩ := writeBlocks_of_sturdy options sturdy fits
    obtain ⟨report', _, reported', _⟩ := writeBlocks_of_sturdy options sturdy (both.mp fits)
    exact ⟨⟨report, by rw [reported]⟩, report', by rw [reported']⟩
  · intro apart
    rw [← goodBlocks_given] at apart
    have transactions : SameTransactions (view s) (givenBatch options blocks s)
        (givenBatch options others s) := sameTransactions_of_perm given apart
    have broken := brokenAt?_eq (refused s) same transactions
    refine ⟨?_, ?_, ?_⟩
    · rw [content, content', reached, reached, broken, transaction?_stage (givenBatch options blocks s),
        transaction?_stage (givenBatch options others s), transactions.table]
    · dsimp only
      rw [broken]
      split <;> simp
    · intro fault
      dsimp only
      rw [broken]
      split <;> simp

namespace TwoForks

/-- A block, and one before it that is stored with another hash. -/
def pair : List Block := [{ number := "0x6", hash := "0xee", timestamp := "0xc" }, second]

end TwoForks

/-- The later block comes first, so the time of the block before it is looked up further on in the
list. -/
theorem blocks_written_alike_of_reversed :
    TwoForks.pair.Perm TwoForks.pair.reverse ∧
      ((TwoForks.pair.filter Block.isVerified).map Block.numberWord).Nodup ∧
      (TwoForks.pair.filter Block.isVerified).length = 2 ∧
      WrittenAlike ⟨false, true⟩ TwoForks.store TwoForks.pair TwoForks.pair.reverse
        ((writeBlocks ⟨false, true⟩ TwoForks.pair).on TwoForks.store)
        ((writeBlocks ⟨false, true⟩ TwoForks.pair.reverse).on TwoForks.store) := by
  have perm : TwoForks.pair.Perm TwoForks.pair.reverse := (List.reverse_perm _).symm
  have distinct : ((TwoForks.pair.filter Block.isVerified).map Block.numberWord).Nodup := by
    decide +kernel
  exact ⟨perm, distinct, by decide +kernel,
    blocks_written_alike_of_perm ⟨false, true⟩ TwoForks.store perm distinct⟩

end Batch

end ChainIndex
