import Mathlib.Data.List.Nodup
import ChainIndex.Proofs.Batch.Evidence
import ChainIndex.Proofs.Store.Lawful

/-!
# A batch accounts for every result

Where no number is asked for twice, each result has exactly one `Place`: its number is among the
failed ones, its row is new or changed, or its row is stored as it is.  The same holds of every
transaction hash, with the last row of that hash.  Which place it is depends on the row and on what
is stored for it alone (`Place.decided`).  `Accounts` says so, and what each list of a batch holds
and in which order.

A batch is read off `classified`, which has its lists as filters of the rows of the results.
-/

namespace ChainIndex

/-- A result that has no block, has a fault, or has a block that is not the one asked for. -/
def BlockResult.Fails (r : BlockResult) : Prop :=
  r.block = none ∨ r.fault ≠ none ∨ ∃ b, r.block = some b ∧ b.verify r.number ≠ .ok ()

namespace Batch

theorem fails_iff_sift {r : BlockResult} : r.Fails ↔ ¬ ∃ b, sift r = .ok b := by
  simp only [sift_ok_iff, BlockResult.Fails]
  cases r.block with
  | none => simp
  | some b =>
    by_cases fault : r.fault = none
    · simp [fault]
    · simp [fault]

theorem fails_iff {r : BlockResult} : r.Fails ↔ (siftIssue? r).isSome := by
  rw [fails_iff_sift, siftIssue?]
  cases sift r <;> simp

instance (r : BlockResult) : Decidable r.Fails := decidable_of_iff _ fails_iff.symm

/-! ## Places -/

/-- The places of a result in a batch, or of a transaction. -/
inductive Place where
  /-- It failed. -/
  | failed
  /-- It is not stored. -/
  | new
  /-- It is stored with another row. -/
  | changed
  /-- It is stored as it is. -/
  | unchanged
deriving DecidableEq, Repr

/-- The place of a row, where there is one, for what is stored in its place. -/
def Place.decided {ρ : Type} [DecidableEq ρ] (row? stored? : Option ρ) : Place :=
  match row?, stored? with
  | none, _ => failed
  | some _, none => new
  | some row, some old => if old = row then unchanged else changed

theorem Place.eq_decided_iff {ρ : Type} [DecidableEq ρ] {row? stored? : Option ρ} {p : Place} :
    p = decided row? stored? ↔
      match p with
      | failed => row? = none
      | new => ∃ row, row? = some row ∧ stored? = none
      | changed => ∃ row, row? = some row ∧ ∃ old, stored? = some old ∧ old ≠ row
      | unchanged => ∃ row, row? = some row ∧ stored? = some row := by
  cases row? with
  | none => cases p <;> simp [decided]
  | some row =>
    cases stored? with
    | none => cases p <;> simp [decided]
    | some old => by_cases same : old = row <;> cases p <;> simp [decided, same]

variable (v : View) (options : ClassifyOptions) (results : List BlockResult)

/-- The row that a result calls for, with the duration since the block before it.  A failed result
has none. -/
def resultRow? (r : BlockResult) : Option BlockRow :=
  let context : Context := ⟨v.block?, fun _ => none, openRows options results⟩
  (sift r).toOption.map fun b => context.complete (rowOf options b)

/-- The rows that results call for, in order. -/
def resultRows : List BlockRow := results.filterMap (resultRow? v options results)

/-- A result has a place in a batch. -/
def Place.OfResult (b : Batch) (r : BlockResult) : Place → Prop
  | failed => r.number ∈ b.failed
  | new => ∃ row ∈ b.newBlocks, row.number = r.number
  | changed => ∃ row ∈ b.changedBlocks, row.number = r.number
  | unchanged => ∃ row, resultRow? v options results r = some row ∧ v.block? r.number = some row

/-- A transaction hash has a place in a batch, for the last of some rows with this hash. -/
def Place.OfTransaction (txs : List TransactionRow) (b : Batch) (hash : String) : Place → Prop
  | failed => False
  | new => ∃ tx ∈ b.newTransactions, tx.hash = hash
  | changed => ∃ tx ∈ b.changedTransactions, tx.hash = hash
  | unchanged => ∃ tx, lastWith? TransactionRow.hash txs hash = some tx ∧
      v.transaction? hash = some tx

/-- The blocks that came as they were asked for, in order. -/
def verifiedBlocks : List Block := (results.filter fun r => ¬ r.Fails).filterMap BlockResult.block

/-- All transactions of the verified blocks with their rows, in order. -/
def occurrences : List TransactionRow :=
  (verifiedBlocks results).flatMap fun b => b.transactions.map (TransactionRow.ofTransaction b)

/-- A batch accounts for each result and for each transaction hash once. -/
structure Accounts (b : Batch) : Prop where
  placed : ∀ r ∈ results, ∀ p : Place, p.OfResult v options results b r ↔
    p = .decided (resultRow? v options results r) (v.block? r.number)
  failed : b.failed = (results.filter fun r => r.Fails).map BlockResult.number
  newBlocks : b.newBlocks =
    (resultRows v options results).filter fun row => (v.block? row.number).isNone
  changedBlocks : b.changedBlocks =
    (resultRows v options results).filter fun row => (v.block? row.number).any (· ≠ row)
  errorIssues : ∀ r ∈ results,
    (b.issues.filter fun i => i.kind = .error ∧ i.blockNumber = r.number).length =
      if r.Fails then 1 else 0
  reorgIssues : b.reorgs = (b.issues.filter fun i => i.kind = .reorg).length
  reorgRows : b.reorgs =
    (b.changedBlocks.filter fun row => (v.block? row.number).any (·.hash ≠ row.hash)).length
  firstFailed : ∀ n, b.firstFailed = some n ↔ n ∈ b.failed ∧ ∀ m ∈ b.failed, n ≤ m
  transactionsPlaced : options.indexTransactions = true →
    ∀ block ∈ verifiedBlocks results, ∀ tx ∈ block.transactions, ∀ p : Place,
      p.OfTransaction v (occurrences results) b (Hex.normalize tx.hash) ↔
        p = .decided (lastWith? TransactionRow.hash (occurrences results) (Hex.normalize tx.hash))
          (v.transaction? (Hex.normalize tx.hash))
  newTransactions : ∀ tx, tx ∈ b.newTransactions ↔ options.indexTransactions = true ∧
    lastWith? TransactionRow.hash (occurrences results) tx.hash = some tx ∧
      v.transaction? tx.hash = none
  changedTransactions : ∀ tx, tx ∈ b.changedTransactions ↔ options.indexTransactions = true ∧
    lastWith? TransactionRow.hash (occurrences results) tx.hash = some tx ∧
      ∃ old, v.transaction? tx.hash = some old ∧ old ≠ tx
  hashesOnce : ((b.newTransactions ++ b.changedTransactions).map TransactionRow.hash).Nodup
  unindexed : options.indexTransactions = false →
    b.newTransactions = [] ∧ b.changedTransactions = []

variable {v options results} {holder? : String → Option UInt64}

/-! ## Results -/

theorem resultRow?_eq_none {r : BlockResult} :
    resultRow? v options results r = none ↔ r.Fails := by
  rw [fails_iff_sift, resultRow?]
  cases sift r <;> simp [Except.toOption]

/-- The row of a result stands under the number that was asked for. -/
theorem resultRow?_number {r : BlockResult} {row : BlockRow}
    (h : resultRow? v options results r = some row) : row.number = r.number := by
  rw [resultRow?] at h
  cases sifted : sift r with
  | ok b =>
    rw [sifted] at h
    obtain rfl := Option.some.inj h
    rw [Context.complete_number, rowOf_number]
    exact Block.numberWord_of_verify (sift_ok_iff.mp sifted).2.2
  | error issue =>
    rw [sifted] at h
    cases h

/-- The rows of the good blocks are those of the results. -/
theorem completedRows_contextOf :
    completedRows (contextOf v holder? options results) options (goodBlocks results) =
      resultRows v options results := by
  rw [completedRows, goodBlocks, List.map_filterMap]
  rfl

/-- The same, where no hash has a holder. -/
theorem resultRows_eq (v : View) (options : ClassifyOptions) (results : List BlockResult) :
    resultRows v options results =
      completedRows (contextOf v (fun _ => none) options results) options (goodBlocks results) :=
  completedRows_contextOf.symm

theorem resultRows_nodup (distinct : (results.map BlockResult.number).Nodup) :
    ((resultRows v options results).map BlockRow.number).Nodup := by
  rw [resultRows_eq]
  exact completedRows_nodup _ options distinct

theorem newBlocks_classified : (classified v holder? options results).newBlocks =
    (resultRows v options results).filter fun row => (v.block? row.number).isNone := by
  exact congrArg (List.filter _) completedRows_contextOf

theorem changedBlocks_classified : (classified v holder? options results).changedBlocks =
    (resultRows v options results).filter fun row => (v.block? row.number).any (· ≠ row) := by
  exact congrArg (List.filter _) completedRows_contextOf

section Distinct

variable {r : BlockResult} (distinct : (results.map BlockResult.number).Nodup) (hr : r ∈ results)

include distinct hr

/-- A row under the number of a result is the row that it calls for. -/
theorem resultRow?_of_mem {row : BlockRow} (h : row ∈ resultRows v options results)
    (same : row.number = r.number) : resultRow? v options results r = some row := by
  obtain ⟨other, hother, found⟩ := List.mem_filterMap.mp h
  have numbers : other.number = r.number := (resultRow?_number found).symm.trans same
  rw [← List.inj_on_of_nodup_map distinct hother hr numbers, found]

/-- Some row that passes a test with what is stored stands under the number of a result just where
the row of the result passes it. -/
theorem exists_filter_resultRows (p : Option BlockRow → BlockRow → Bool) :
    (∃ row ∈ (resultRows v options results).filter fun row => p (v.block? row.number) row,
        row.number = r.number) ↔
      ∃ row, resultRow? v options results r = some row ∧ p (v.block? r.number) row = true := by
  constructor
  · rintro ⟨row, hrow, same⟩
    obtain ⟨hrow, passes⟩ := List.mem_filter.mp hrow
    exact ⟨row, resultRow?_of_mem distinct hr hrow same, same ▸ passes⟩
  · rintro ⟨row, found, passes⟩
    have hrow := List.mem_filterMap.mpr ⟨r, hr, found⟩
    have number := resultRow?_number found
    exact ⟨row, List.mem_filter.mpr ⟨hrow, number ▸ passes⟩, number⟩

theorem mem_failed_iff : r.number ∈ failedNumbers results ↔ r.Fails := by
  rw [failedNumbers, List.mem_map]
  constructor
  · rintro ⟨other, hother, same⟩
    obtain ⟨hother, failed⟩ := List.mem_filter.mp hother
    exact List.inj_on_of_nodup_map distinct hother hr same ▸ fails_iff.mpr failed
  · exact fun fails => ⟨r, List.mem_filter.mpr ⟨hr, fails_iff.mp fails⟩, rfl⟩

/-- A result has one place, the one that is decided. -/
theorem ofResult_iff (p : Place) :
    p.OfResult v options results (classified v holder? options results) r ↔
      p = .decided (resultRow? v options results r) (v.block? r.number) := by
  rw [Place.eq_decided_iff]
  cases p with
  | failed =>
    rw [resultRow?_eq_none]
    exact mem_failed_iff distinct hr
  | new =>
    rw [Place.OfResult, newBlocks_classified]
    exact (exists_filter_resultRows distinct hr fun stored _ => stored.isNone).trans (by simp)
  | changed =>
    rw [Place.OfResult, changedBlocks_classified]
    refine (exists_filter_resultRows distinct hr fun stored row => stored.any (· ≠ row)).trans ?_
    simp only [Option.any_eq_true, decide_eq_true_eq]
  | unchanged => rfl

end Distinct

/-! ## Issues -/

/-- An issue of a good block is about no failure. -/
theorem kind_of_blockIssues {c : Context} {hashes : List (String × UInt64)}
    {seen : List TransactionRow} {blocks : List Block} {issue : Issue}
    (h : issue ∈ blockIssues c options hashes seen blocks) : issue.kind ≠ .error := by
  induction blocks generalizing hashes seen with
  | nil => cases h
  | cons b rest ih =>
    simp only [blockIssues, List.mem_append] at h
    rcases h with ((h | h) | h) | h
    · simp [kind_of_hashIssues h]
    · simp [kind_of_moves h]
    · obtain ⟨old, _, _, rfl⟩ := mem_reorgIssues.mp h
      intro same
      cases same
    · exact ih h

theorem kind_of_storedMoves {stored? : String → Option TransactionRow} {txs : List TransactionRow}
    {issue : Issue} (h : issue ∈ txs.flatMap (storedMoves stored?)) :
    issue.kind = .duplicatedTxHash := by
  obtain ⟨tx, _, h⟩ := List.mem_flatMap.mp h
  exact kind_of_issuesOver h

/-- The issues of failures under a number are those of the results with that number. -/
theorem errorIssues_classified (n : UInt64) :
    (classified v holder? options results).issues.filter
        (fun i => i.kind = .error ∧ i.blockNumber = n) =
      (results.filter fun r => r.number = n).filterMap siftIssue? := by
  have blocksNone {c : Context} {blocks : List Block} :
      (blockIssues c options [] [] blocks).filter
        (fun i => i.kind = .error ∧ i.blockNumber = n) = [] :=
    List.filter_eq_nil_iff.mpr fun i hi => by simp [kind_of_blockIssues hi]
  have movesNone {txs : List TransactionRow} :
      (txs.flatMap (storedMoves v.transaction?)).filter
        (fun i => i.kind = .error ∧ i.blockNumber = n) = [] :=
    List.filter_eq_nil_iff.mpr fun i hi => by simp [kind_of_storedMoves hi]
  simp only [classified, List.filter_append, blocksNone, movesNone, List.append_nil]
  induction results with
  | nil => rfl
  | cons r rest ih =>
    cases failed : siftIssue? r with
    | none => by_cases here : r.number = n <;> simpa [here, failed] using ih
    | some i =>
      obtain ⟨reason, rfl⟩ := eq_failure_of_siftIssue failed
      by_cases here : r.number = n <;>
        simpa [Issue.failure, Issue.make, here, failed] using ih

theorem filter_number_eq {r : BlockResult} (distinct : (results.map BlockResult.number).Nodup)
    (hr : r ∈ results) : (results.filter fun x => x.number = r.number) = [r] := by
  induction results with
  | nil => cases hr
  | cons x rest ih =>
    obtain ⟨fresh, distinct⟩ := List.nodup_cons.mp distinct
    rcases List.mem_cons.mp hr with rfl | hr
    · have others : (rest.filter fun x => x.number = r.number) = [] :=
        List.filter_eq_nil_iff.mpr fun x hx same =>
          fresh (List.mem_map.mpr ⟨x, hx, of_decide_eq_true same⟩)
      rw [List.filter_cons_of_pos (by simp), others]
    · have other : x.number ≠ r.number := fun same => fresh (List.mem_map.mpr ⟨r, hr, same.symm⟩)
      rw [List.filter_cons_of_neg (by simpa using other), ih distinct hr]

/-- A failed result has one issue under its number, and no other result has one. -/
theorem length_errorIssues {r : BlockResult} (distinct : (results.map BlockResult.number).Nodup)
    (hr : r ∈ results) :
    ((classified v holder? options results).issues.filter
      fun i => i.kind = .error ∧ i.blockNumber = r.number).length = if r.Fails then 1 else 0 := by
  rw [errorIssues_classified, filter_number_eq distinct hr]
  cases failed : siftIssue? r <;> simp [fails_iff, failed]

/-- The reorg issues of good blocks are those of their rows, in order. -/
theorem filter_blockIssues {c : Context} {hashes : List (String × UInt64)}
    {seen : List TransactionRow} {blocks : List Block} :
    (blockIssues c options hashes seen blocks).filter (fun i => i.kind = .reorg) =
      blocks.flatMap fun b => c.reorgIssues (rowOf options b) := by
  induction blocks generalizing hashes seen with
  | nil => rfl
  | cons b rest ih =>
    have hashesNone : (hashIssues c hashes (rowOf options b)).filter (fun i => i.kind = .reorg) = [] :=
      List.filter_eq_nil_iff.mpr fun i hi => by simp [kind_of_hashIssues hi]
    have movesNone : (moves seen (transactionsOf options [b])).filter (fun i => i.kind = .reorg) = [] :=
      List.filter_eq_nil_iff.mpr fun i hi => by simp [kind_of_moves hi]
    have reorgsAll : (c.reorgIssues (rowOf options b)).filter (fun i => i.kind = .reorg) =
        c.reorgIssues (rowOf options b) := by
      refine List.filter_eq_self.mpr fun i hi => ?_
      obtain ⟨old, _, _, rfl⟩ := mem_reorgIssues.mp hi
      rfl
    simp only [blockIssues, List.filter_append, hashesNone, movesNone, reorgsAll, ih,
      List.nil_append, List.flatMap_cons]

theorem reorgIssues_classified : (classified v holder? options results).reorgs =
    ((classified v holder? options results).issues.filter fun i => i.kind = .reorg).length := by
  have failuresNone : (results.filterMap siftIssue?).filter (fun i => i.kind = .reorg) = [] := by
    refine List.filter_eq_nil_iff.mpr fun i hi => ?_
    obtain ⟨r, _, failed⟩ := List.mem_filterMap.mp hi
    simp [kind_of_siftIssue failed]
  have movesNone {txs : List TransactionRow} :
      (txs.flatMap (storedMoves v.transaction?)).filter (fun i => i.kind = .reorg) = [] :=
    List.filter_eq_nil_iff.mpr fun i hi => by simp [kind_of_storedMoves hi]
  simp only [classified, List.filter_append, failuresNone, movesNone, filter_blockIssues,
    List.nil_append, List.append_nil]

theorem length_reorgIssues {c : Context} (row : BlockRow) :
    (c.reorgIssues row).length =
      if (c.storedRow? row.number).any (·.hash ≠ row.hash) then 1 else 0 := by
  rw [Context.reorgIssues]
  cases c.storedRow? row.number with
  | none => rfl
  | some old => by_cases same : old.hash = row.hash <;> simp [same]

theorem length_flatMap_reorgIssues (c : Context) (blocks : List Block) :
    (blocks.flatMap fun b => c.reorgIssues (rowOf options b)).length =
      (completedRows c options blocks).countP
        fun row => (c.storedRow? row.number).any (·.hash ≠ row.hash) := by
  induction blocks with
  | nil => rfl
  | cons b rest ih =>
    have rows : completedRows c options (b :: rest) =
        c.complete (rowOf options b) :: completedRows c options rest := rfl
    rw [List.flatMap_cons, List.length_append, ih, rows, List.countP_cons, length_reorgIssues,
      Nat.add_comm]
    rfl

/-- There are as many reorgs as changed rows whose stored hash is another one. -/
theorem reorgRows_classified : (classified v holder? options results).reorgs =
    ((classified v holder? options results).changedBlocks.filter
      fun row => (v.block? row.number).any (·.hash ≠ row.hash)).length := by
  have other (stored : Option BlockRow) (row : BlockRow) :
      (stored.any (·.hash ≠ row.hash) && stored.any (· ≠ row)) = stored.any (·.hash ≠ row.hash) := by
    cases stored with
    | none => rfl
    | some old => by_cases same : old = row <;> simp [same]
  rw [changedBlocks_classified, List.filter_filter, ← List.countP_eq_length_filter]
  simp only [other]
  exact (length_flatMap_reorgIssues _ _).trans (congrArg _ completedRows_contextOf)

/-! ## The earliest failure -/

theorem firstFailed_iff {b : Batch} {n : UInt64} :
    b.firstFailed = some n ↔ n ∈ b.failed ∧ ∀ m ∈ b.failed, n ≤ m := List.min?_eq_some_iff

/-! ## Transactions -/

/-- The verified blocks are those of the good results. -/
theorem verifiedBlocks_eq (results : List BlockResult) : verifiedBlocks results = goodBlocks results := by
  induction results with
  | nil => rfl
  | cons r rest ih =>
    rw [verifiedBlocks] at ih ⊢
    cases sifted : sift r with
    | ok b =>
      have good : ¬ r.Fails := fun fails => fails_iff_sift.mp fails ⟨b, sifted⟩
      rw [List.filter_cons_of_pos (by simpa using good),
        List.filterMap_cons_some (sift_ok_iff.mp sifted).1, ih, goodBlocks_cons_ok rest sifted]
    | error issue =>
      have fails : r.Fails := fails_iff_sift.mpr fun ⟨b, good⟩ => by cases sifted.symm.trans good
      rw [List.filter_cons_of_neg (by simpa using fails), ih, goodBlocks_cons_error rest sifted]

theorem transactionsOf_eq : transactionsOf options (goodBlocks results) =
    if options.indexTransactions then occurrences results else [] := by
  rw [occurrences, verifiedBlocks_eq]
  rfl

/-- The row of a transaction of a verified block is among them. -/
theorem mem_occurrences {b : Block} (hb : b ∈ verifiedBlocks results) {tx : Transaction}
    (htx : tx ∈ b.transactions) :
    Hex.normalize tx.hash ∈ (occurrences results).map TransactionRow.hash :=
  List.mem_map.mpr ⟨.ofTransaction b tx,
    List.mem_flatMap.mpr ⟨b, hb, List.mem_map_of_mem htx⟩, rfl⟩

theorem mem_newTransactions_iff {tx : TransactionRow} :
    tx ∈ (classified v holder? options results).newTransactions ↔
      options.indexTransactions = true ∧
        lastWith? TransactionRow.hash (occurrences results) tx.hash = some tx ∧
          v.transaction? tx.hash = none := by
  show tx ∈ (distinct _).filter _ ↔ _
  rw [List.mem_filter, mem_distinct_iff, transactionsOf_eq]
  cases options.indexTransactions <;> simp

theorem mem_changedTransactions_iff {tx : TransactionRow} :
    tx ∈ (classified v holder? options results).changedTransactions ↔
      options.indexTransactions = true ∧
        lastWith? TransactionRow.hash (occurrences results) tx.hash = some tx ∧
          ∃ old, v.transaction? tx.hash = some old ∧ old ≠ tx := by
  show tx ∈ (distinct _).filter _ ↔ _
  rw [List.mem_filter, mem_distinct_iff, transactionsOf_eq]
  cases options.indexTransactions <;> simp [isChangedTransaction, Option.any_eq_true]

/-- A transaction hash has one place, the one that is decided. -/
theorem ofTransaction_iff (indexed : options.indexTransactions = true) {hash : String}
    (seen : hash ∈ (occurrences results).map TransactionRow.hash) (p : Place) :
    p.OfTransaction v (occurrences results) (classified v holder? options results) hash ↔
      p = .decided (lastWith? TransactionRow.hash (occurrences results) hash)
        (v.transaction? hash) := by
  have last (p : Option TransactionRow → TransactionRow → Prop) :
      (∃ tx, (options.indexTransactions = true ∧
          lastWith? TransactionRow.hash (occurrences results) tx.hash = some tx ∧
            p (v.transaction? tx.hash) tx) ∧ tx.hash = hash) ↔
        ∃ tx, lastWith? TransactionRow.hash (occurrences results) hash = some tx ∧
          p (v.transaction? hash) tx := by
    constructor
    · rintro ⟨tx, ⟨_, last, passes⟩, rfl⟩
      exact ⟨tx, last, passes⟩
    · rintro ⟨tx, last, passes⟩
      obtain rfl := (lastWith?_some last).2
      exact ⟨tx, ⟨indexed, last, passes⟩, rfl⟩
  rw [Place.eq_decided_iff]
  cases p with
  | failed =>
    obtain ⟨tx, htx, same⟩ := List.mem_map.mp seen
    obtain ⟨found, last⟩ := Option.isSome_iff_exists.mp (lastWith?_isSome htx same)
    simp [Place.OfTransaction, last]
  | new =>
    simp only [Place.OfTransaction, mem_newTransactions_iff]
    exact last fun stored _ => stored = none
  | changed =>
    simp only [Place.OfTransaction, mem_changedTransactions_iff]
    exact last fun stored tx => ∃ old, stored = some old ∧ old ≠ tx
  | unchanged => rfl

/-- Each transaction hash stands once among the new and the changed rows. -/
theorem transactionHashes_nodup :
    (((classified v holder? options results).newTransactions ++
      (classified v holder? options results).changedTransactions).map TransactionRow.hash).Nodup := by
  have once := distinct_nodup (transactionsOf options (goodBlocks results))
  rw [List.map_append, List.nodup_append]
  refine ⟨once.sublist (List.filter_sublist.map _), once.sublist (List.filter_sublist.map _), ?_⟩
  intro a ha b hb same
  obtain ⟨new, hnew, rfl⟩ := List.mem_map.mp ha
  obtain ⟨changed, hchanged, rfl⟩ := List.mem_map.mp hb
  obtain ⟨_, _, absent⟩ := mem_newTransactions_iff.mp hnew
  obtain ⟨_, _, old, stored, _⟩ := mem_changedTransactions_iff.mp hchanged
  rw [same, stored] at absent
  cases absent

/-! ## The whole batch -/

theorem accounts_classified (distinct : (results.map BlockResult.number).Nodup) :
    Accounts v options results (classified v holder? options results) where
  placed _ hr := ofResult_iff distinct hr
  failed := by
    simp only [fails_iff, Bool.decide_eq_true]
    rfl
  newBlocks := newBlocks_classified
  changedBlocks := changedBlocks_classified
  errorIssues _ hr := length_errorIssues distinct hr
  reorgIssues := reorgIssues_classified
  reorgRows := reorgRows_classified
  firstFailed _ := firstFailed_iff
  transactionsPlaced indexed _ hb _ htx := ofTransaction_iff indexed (mem_occurrences hb htx)
  newTransactions _ := mem_newTransactions_iff
  changedTransactions _ := mem_changedTransactions_iff
  hashesOnce := transactionHashes_nodup
  unindexed off := by
    constructor
    · refine List.eq_nil_iff_forall_not_mem.mpr fun tx htx => ?_
      rw [mem_newTransactions_iff, off] at htx
      exact absurd htx.1 Bool.false_ne_true
    · refine List.eq_nil_iff_forall_not_mem.mpr fun tx htx => ?_
      rw [mem_changedTransactions_iff, off] at htx
      exact absurd htx.1 Bool.false_ne_true

open LawfulBackend in
/-- A classification of results with different numbers writes nothing.  It succeeds unless a block is
stamped too long after the block before it, and then its batch accounts for each result and each
transaction once, for what the store holds. -/
theorem prepare_accounts {σ : Type} [Backend σ] [LawfulBackend σ] (options : ClassifyOptions)
    (results : List BlockResult) (s : σ) (distinct : (results.map BlockResult.number).Nodup) :
    (TimesFit (view s) results → ∃ batch, (prepare options results).on s = (.ok batch, s) ∧
      Accounts (view s) options results batch) ∧
    (¬ TimesFit (view s) results → (prepare options results).on s = (.error .overflow, s)) :=
  ⟨fun fits => ⟨_, prepare_ok fits, accounts_classified distinct⟩, prepare_overflow⟩

namespace SharedTransaction

/-- A block of two transactions. -/
def first : Block :=
  { number := "0x1", hash := "0xab", transactions := [{ hash := "0xAA" }, { hash := "0xbb" }] }

/-- A block that has one of them, too. -/
def second : Block := { number := "0x2", hash := "0xac", transactions := [{ hash := "aa" }] }

/-- The two blocks, and a number whose fetch failed. -/
def fetched : List BlockResult :=
  [⟨1, some first, none, none, 0⟩, ⟨2, some second, none, none, 0⟩, ⟨3, none, none, none, 0⟩]

/-- A store that has the other transaction in a block that is gone. -/
def store : MemoryStore :=
  ((Backend.saveTransactions (σ := MemoryStore)
    [{ hash := "0xbb", blockNumber := 7, blockHash := "0xcc" }] []).on default).2

end SharedTransaction

open LawfulBackend SharedTransaction in
theorem prepare_accounts_of_shared_transaction :
    ∃ batch, (prepare ⟨true, true⟩ fetched).on store = (.ok batch, store) ∧ batch.failed = [3] ∧
      TransactionRow.ofTransaction second { hash := "aa" } ∈ batch.newTransactions ∧
      TransactionRow.ofTransaction first { hash := "0xbb" } ∈ batch.changedTransactions := by
  obtain ⟨batch, prepared, accounts⟩ :=
    (prepare_accounts ⟨true, true⟩ fetched store (by decide)).1 (by decide +kernel)
  refine ⟨batch, prepared, accounts.failed.trans (by decide +kernel), ?_, ?_⟩
  · exact (accounts.newTransactions _).mpr ⟨rfl, by decide +kernel, by decide +kernel⟩
  · exact (accounts.changedTransactions _).mpr
      ⟨rfl, by decide +kernel, { hash := "0xbb", blockNumber := 7, blockHash := "0xcc" },
        by decide +kernel, by decide +kernel⟩

end Batch

end ChainIndex
