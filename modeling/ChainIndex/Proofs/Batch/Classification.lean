import ChainIndex.Proofs.Batch.Transactions
import ChainIndex.Proofs.Store.View
import Mathlib.Data.List.Basic

/-!
# What a classification decides

`classified` is the classification of results against the content of a store, field by
field.  `prepare_on` says that `prepare` computes it for every lawful store, and that it
writes nothing: `prepared` is its answer.  It breaks off just where the time from one block to the
next does not fit (`TimesFit`).

`prepare` does not see the whole store.  It looks up the numbers of the batch, the numbers
before them, and the hashes.  That is enough, because a row is classified by what the
context says about that row alone (`Context.Agree`).
-/

namespace ChainIndex.Batch

/-! ## One row -/

namespace Context

variable (c : Context)

/-- A row with its duration. -/
def complete (row : BlockRow) : BlockRow := { row with mintDuration := c.mintDuration row }

@[simp] theorem complete_number (row : BlockRow) : (c.complete row).number = row.number := rfl

@[simp] theorem complete_hash (row : BlockRow) : (c.complete row).hash = row.hash := rfl

/-- No row is stored under the number of this one. -/
def isNew (row : BlockRow) : Bool := (c.storedRow? row.number).isNone

/-- Another row is stored under the number of this one. -/
def isChanged (row : BlockRow) : Bool := (c.storedRow? row.number).any (· ≠ row)

/-- The issue of a row whose stored hash is another one. -/
def reorgIssues (row : BlockRow) : List Issue :=
  match c.storedRow? row.number with
  | none => []
  | some old => if old.hash ≠ row.hash then [Issue.reorg row.number old.hash row.hash] else []

/-- Two contexts say the same about a row. -/
structure Agree (c d : Context) (row : BlockRow) : Prop where
  stored : c.storedRow? row.number = d.storedRow? row.number
  owner : c.owner? row.hash = d.owner? row.hash
  parent : c.parentTime? row.number = d.parentTime? row.number

end Context

theorem place_eq (c : Context) (b : Batch) (row : BlockRow) :
    b.place (c.storedRow? row.number) row =
      { b with
        newBlocks := b.newBlocks ++ [row].filter c.isNew
        changedBlocks := b.changedBlocks ++ [row].filter c.isChanged
        issues := b.issues ++ c.reorgIssues row
        reorgs := b.reorgs + (c.reorgIssues row).length } := by
  cases found : c.storedRow? row.number with
  | none => simp [place, Context.reorgIssues, Context.isNew, Context.isChanged, found]
  | some old =>
    by_cases moved : old.hash = row.hash
    · by_cases same : old = row
      · simp [place, Context.reorgIssues, Context.isNew, Context.isChanged, found, same]
      · simp [place, Context.reorgIssues, Context.isNew, Context.isChanged, found, moved, same]
    · have other : old ≠ row := fun same => moved (congrArg BlockRow.hash same)
      simp [place, Context.reorgIssues, Context.isNew, Context.isChanged, found, moved, other, note]

/-! ## All blocks -/

/-- The issues of transactions that move within a batch, for the transactions so far. -/
def moves (seen : List TransactionRow) : List TransactionRow → List Issue
  | [] => []
  | tx :: rest => issuesOver (sameHash? seen tx) tx ++ moves (putTransaction seen tx) rest

theorem foldl_addTransaction (p : Progress) (txs : List TransactionRow) :
    txs.foldl addTransaction p =
      { p with
        batch := { p.batch with issues := p.batch.issues ++ moves p.transactions txs }
        transactions := txs.foldl putTransaction p.transactions } := by
  induction txs generalizing p with
  | nil => simp [moves]
  | cons tx rest ih => simp [ih, addTransaction, moves]

/-- The hash of a row and the number under which it stands. -/
def hashEntry (row : BlockRow) : String × UInt64 := (row.hash, row.number)

/-- The issues of blocks, for the hashes and the transactions so far. -/
def blockIssues (c : Context) (options : ClassifyOptions) (hashes : List (String × UInt64))
    (seen : List TransactionRow) : List Block → List Issue
  | [] => []
  | b :: rest =>
    let row := rowOf options b
    let txs := transactionsOf options [b]
    hashIssues c hashes row ++ moves seen txs ++ c.reorgIssues row ++
      blockIssues c options (hashes ++ [hashEntry row]) (txs.foldl putTransaction seen) rest

theorem addBlock_eq (c : Context) (options : ClassifyOptions) (p : Progress) (b : Block)
    (row : BlockRow) :
    addBlock c options p b row =
      { batch := { p.batch with
          newBlocks := p.batch.newBlocks ++ [c.complete row].filter c.isNew
          changedBlocks := p.batch.changedBlocks ++ [c.complete row].filter c.isChanged
          issues := p.batch.issues ++ (hashIssues c p.hashes row ++
            moves p.transactions (transactionsOf options [b]) ++ c.reorgIssues row)
          reorgs := p.batch.reorgs + (c.reorgIssues row).length }
        hashes := p.hashes ++ [hashEntry row]
        transactions := (transactionsOf options [b]).foldl putTransaction p.transactions } := by
  have placed := fun q : Batch => place_eq c q (c.complete row)
  simp only [Context.complete_number] at placed
  have classified : addBlock c options p b row =
      let q : Progress := { p with
        batch := { p.batch with issues := p.batch.issues ++ hashIssues c p.hashes row }
        hashes := p.hashes ++ [hashEntry row] }
      let q := (transactionsOf options [b]).foldl addTransaction q
      { q with batch := q.batch.place (c.storedRow? row.number) (c.complete row) } := by
    rw [addBlock, transactionsOf]
    cases options.indexTransactions
    · rfl
    · simp only [if_true, List.flatMap_cons, List.flatMap_nil, List.append_nil]
      rfl
  rw [classified]
  simp only [foldl_addTransaction, placed, List.append_assoc]
  rfl

/-- The rows of some blocks with their durations. -/
def completedRows (c : Context) (options : ClassifyOptions) (blocks : List Block) : List BlockRow :=
  blocks.map fun b => c.complete (rowOf options b)

theorem foldl_addBlock (c : Context) (options : ClassifyOptions) (p : Progress)
    (blocks : List Block) :
    (blocks.map fun b => (b, rowOf options b)).foldl
        (fun p (b, row) => addBlock c options p b row) p =
      { batch := { p.batch with
          newBlocks := p.batch.newBlocks ++ (completedRows c options blocks).filter c.isNew
          changedBlocks :=
            p.batch.changedBlocks ++ (completedRows c options blocks).filter c.isChanged
          issues := p.batch.issues ++ blockIssues c options p.hashes p.transactions blocks
          reorgs :=
            p.batch.reorgs + (blocks.flatMap fun b => c.reorgIssues (rowOf options b)).length }
        hashes := p.hashes ++ blocks.map fun b => hashEntry (rowOf options b)
        transactions := (transactionsOf options blocks).foldl putTransaction p.transactions } := by
  induction blocks generalizing p with
  | nil => simp [completedRows, blockIssues, transactionsOf]
  | cons b rest ih =>
    rw [List.map_cons, List.foldl_cons]
    dsimp only
    rw [addBlock_eq, ih, transactionsOf_cons options b rest, List.foldl_append]
    have rows (f : BlockRow → Bool) : (completedRows c options (b :: rest)).filter f =
        [c.complete (rowOf options b)].filter f ++ (completedRows c options rest).filter f :=
      List.filter_append [c.complete (rowOf options b)] (completedRows c options rest)
    simp only [rows, blockIssues, List.append_assoc, List.flatMap_cons, List.length_append,
      Nat.add_assoc, List.map_cons, List.singleton_append]

/-! ## Transactions -/

/-- The issue of a transaction that is stored in another block. -/
def storedMoves (stored? : String → Option TransactionRow) (tx : TransactionRow) : List Issue :=
  issuesOver (stored? tx.hash) tx

/-- Another row is stored under the hash of this one. -/
def isChangedTransaction (stored? : String → Option TransactionRow) (tx : TransactionRow) : Bool :=
  (stored? tx.hash).any (· ≠ tx)

theorem foldl_placeTransaction (stored? : String → Option TransactionRow) (b : Batch)
    (txs : List TransactionRow) :
    txs.foldl (placeTransaction stored?) b =
      { b with
        newTransactions := b.newTransactions ++ txs.filter fun tx => (stored? tx.hash).isNone
        changedTransactions := b.changedTransactions ++ txs.filter (isChangedTransaction stored?)
        issues := b.issues ++ txs.flatMap (storedMoves stored?) } := by
  induction txs generalizing b with
  | nil => simp
  | cons tx rest ih =>
    rw [List.foldl_cons, ih, placeTransaction]
    cases found : stored? tx.hash with
    | none => simp [found, isChangedTransaction, storedMoves, issuesOver]
    | some old =>
      by_cases moved : old.blockNumber = tx.blockNumber
      · by_cases same : old = tx
        · simp [found, isChangedTransaction, storedMoves, issuesOver, movedIssue, same]
        · simp [found, isChangedTransaction, storedMoves, issuesOver, movedIssue, moved, same]
      · have other : old ≠ tx := fun same => moved (congrArg TransactionRow.blockNumber same)
        simp [found, isChangedTransaction, storedMoves, issuesOver, moved, other]

/-! ## The whole batch -/

/-- What the content of a store says about the blocks of a batch. -/
def contextOf (v : View) (holder? : String → Option UInt64) (options : ClassifyOptions)
    (results : List BlockResult) : Context := ⟨v.block?, holder?, openRows options results⟩

/-- Results classified against the content of a store. -/
def classified (v : View) (holder? : String → Option UInt64) (options : ClassifyOptions)
    (results : List BlockResult) : Batch :=
  let c := contextOf v holder? options results
  let blocks := goodBlocks results
  let txs := distinct (transactionsOf options blocks)
  { newBlocks := (completedRows c options blocks).filter c.isNew
    changedBlocks := (completedRows c options blocks).filter c.isChanged
    newTransactions := txs.filter fun tx => (v.transaction? tx.hash).isNone
    changedTransactions := txs.filter (isChangedTransaction v.transaction?)
    transactions := transactionCount results
    issues := results.filterMap siftIssue? ++ blockIssues c options [] [] blocks ++
      txs.flatMap (storedMoves v.transaction?)
    failed := failedNumbers results
    reorgs := (blocks.flatMap fun b => c.reorgIssues (rowOf options b)).length }

/-! ## Times -/

/-- The time of the block before a number: of the last good block of the results with its number, or
else of the stored one. -/
def timeBefore? (v : View) (results : List BlockResult) (n : UInt64) : Option Int64 :=
  if n = 0 then none
  else ((lastWith? Block.numberWord (goodBlocks results) (n - 1)).map Block.timestampSigned).or
    ((v.block? (n - 1)).map BlockRow.timestamp)

/-- No good block is stamped `2 ^ 63` seconds or more after the block before it. -/
def TimesFit (v : View) (results : List BlockResult) : Prop :=
  ∀ b ∈ goodBlocks results, ∀ t ∈ timeBefore? v results b.numberWord,
    b.timestampSigned.toInt - t.toInt < 0x8000000000000000

instance (v : View) (results : List BlockResult) : Decidable (TimesFit v results) :=
  @List.decidableBAll Block (fun b => ∀ t ∈ timeBefore? v results b.numberWord, _)
    (fun _ => Option.decidableForallMem _) (goodBlocks results)

theorem parentTime?_contextOf (v : View) (holder? : String → Option UInt64)
    (options : ClassifyOptions) (results : List BlockResult) (n : UInt64) :
    (contextOf v holder? options results).parentTime? n = timeBefore? v results n := by
  have time : BlockRow.timestamp ∘ rowOf options = Block.timestampSigned :=
    funext (rowOf_timestamp options)
  rw [Context.parentTime?, timeBefore?]
  simp only [contextOf, openRows, lastWith?_map_rows, rowOf_number, Option.map_or, Option.map_map,
    time]

/-- Results whose times fit are those whose rows have times that fit. -/
theorem timesFit_iff_rows (v : View) (holder? : String → Option UInt64) (options : ClassifyOptions)
    (results : List BlockResult) :
    (∀ row ∈ openRows options results, (contextOf v holder? options results).TimeFits row) ↔
      TimesFit v results := by
  simp only [openRows, List.forall_mem_map, Context.TimeFits, parentTime?_contextOf, rowOf_number,
    rowOf_timestamp]
  rfl

/-! ## What is looked up -/

theorem mem_eraseReps_loop {n a : UInt64} {rest acc : List UInt64}
    (h : n ∈ a :: rest ∨ n ∈ acc) : n ∈ List.eraseRepsBy.loop (· == ·) a rest acc := by
  induction rest generalizing a acc with
  | nil =>
    rw [List.eraseRepsBy.loop, List.mem_reverse, List.mem_cons]
    exact h.imp List.mem_singleton.mp id
  | cons b rest ih =>
    rw [List.eraseRepsBy.loop]
    cases same : a == b with
    | true =>
      refine ih (h.imp (fun h => ?_) id)
      rw [← beq_iff_eq.mp same] at h
      simpa using h
    | false =>
      apply ih
      rcases h with h | h
      · rcases List.mem_cons.mp h with h | h
        · exact .inr (h ▸ List.mem_cons_self)
        · exact .inl h
      · exact .inr (List.mem_cons_of_mem a h)

/-- No number is lost where neighbours that are equal become one. -/
theorem mem_eraseReps {n : UInt64} {numbers : List UInt64} (h : n ∈ numbers) :
    n ∈ numbers.eraseReps := by
  cases numbers with
  | nil => cases h
  | cons a rest => exact mem_eraseReps_loop (.inl h)

/-- The number of a row is looked up, and the number before it. -/
theorem mem_lookupNumbers {rows : List BlockRow} {row : BlockRow} (h : row ∈ rows) :
    row.number ∈ lookupNumbers rows ∧ (row.number ≠ 0 → row.number - 1 ∈ lookupNumbers rows) := by
  have found : ∀ n, n ∈ (if row.number = 0 then [row.number] else [row.number, row.number - 1]) →
      n ∈ lookupNumbers rows := fun n hn =>
    mem_eraseReps (List.mem_mergeSort.mpr (List.mem_flatMap.mpr ⟨row, h, hn⟩))
  refine ⟨found _ ?_, fun positive => found _ ?_⟩
  · split <;> exact List.mem_cons_self
  · rw [if_neg positive]
    exact List.mem_cons_of_mem _ List.mem_cons_self

theorem addBlock_congr {c d : Context} {row : BlockRow} (h : c.Agree d row)
    (options : ClassifyOptions) (p : Progress) (b : Block) :
    addBlock c options p b row = addBlock d options p b row := by
  have complete : c.complete row = d.complete row := by
    rw [Context.complete, Context.mintDuration, h.parent]
    rfl
  have new : c.isNew (d.complete row) = d.isNew (d.complete row) := congrArg Option.isNone h.stored
  have changed : c.isChanged (d.complete row) = d.isChanged (d.complete row) :=
    congrArg (Option.any (· ≠ d.complete row)) h.stored
  have reorgs : c.reorgIssues row = d.reorgIssues row := by
    rw [Context.reorgIssues, Context.reorgIssues, h.stored]
  have hashes : hashIssues c p.hashes row = hashIssues d p.hashes row := by
    rw [hashIssues, hashIssues, h.owner]
  rw [addBlock_eq, addBlock_eq]
  simp only [complete, new, changed, reorgs, hashes, List.filter_cons, List.filter_nil]

variable {σ : Type} [Backend σ] [LawfulBackend σ]

open LawfulBackend

/-- The lookups tell all that matters for the rows of the batch. -/
theorem agree_ofLookups {s : σ} {stored sharing rows : List BlockRow}
    (hstored : ∀ row, row ∈ stored ↔
      row.number ∈ lookupNumbers rows ∧ (view s).block? row.number = some row)
    (hsharing : ∀ h ∈ rows.map BlockRow.hash,
      (lastWith? BlockRow.hash sharing h).map BlockRow.number = Backend.holder? s h)
    {row : BlockRow} (hrow : row ∈ rows) :
    (Context.ofLookups stored sharing rows).Agree
      ⟨(view s).block?, Backend.holder? s, rows⟩ row := by
  have found (n : UInt64) (hn : n ∈ lookupNumbers rows) :
      lastWith? BlockRow.number stored n = (view s).block? n :=
    lastWith?_of_lookup (fun _ _ => block_number) hstored hn
  obtain ⟨own, before⟩ := mem_lookupNumbers hrow
  refine ⟨found _ own, hsharing _ (List.mem_map_of_mem hrow), ?_⟩
  rw [Context.parentTime?, Context.parentTime?]
  by_cases zero : row.number = 0
  · rw [if_pos zero, if_pos zero]
  · rw [if_neg zero, if_neg zero]
    simp only [Context.ofLookups, found _ (before zero)]

/-- The blocks of a batch are classified by lookups as they are by the store itself. -/
theorem addBlocks_ofLookups {s : σ} {stored sharing : List BlockRow} (options : ClassifyOptions)
    (results : List BlockResult) (b : Batch)
    (hstored : ∀ row, row ∈ stored ↔
      row.number ∈ lookupNumbers (openRows options results) ∧ (view s).block? row.number = some row)
    (hsharing : ∀ h ∈ (openRows options results).map BlockRow.hash,
      (lastWith? BlockRow.hash sharing h).map BlockRow.number = Backend.holder? s h) :
    addBlocks (.ofLookups stored sharing (openRows options results)) options b
        ((goodBlocks results).map fun b => (b, rowOf options b)) =
      addBlocks (contextOf (view s) (Backend.holder? s) options results) options b
        ((goodBlocks results).map fun b => (b, rowOf options b)) := by
  refine List.foldl_ext _ _ _ ?_
  intro p x hx
  obtain ⟨block, hblock, rfl⟩ := List.mem_map.mp hx
  have agree := agree_ofLookups hstored hsharing (List.mem_map_of_mem hblock)
  exact addBlock_congr agree options p block

/-- The lookups tell whether the times of the batch fit. -/
theorem timesFit_ofLookups {s : σ} {stored sharing : List BlockRow} (options : ClassifyOptions)
    {results : List BlockResult}
    (hstored : ∀ row, row ∈ stored ↔
      row.number ∈ lookupNumbers (openRows options results) ∧ (view s).block? row.number = some row)
    (hsharing : ∀ h ∈ (openRows options results).map BlockRow.hash,
      (lastWith? BlockRow.hash sharing h).map BlockRow.number = Backend.holder? s h) :
    (∀ row ∈ openRows options results,
        (Context.ofLookups stored sharing (openRows options results)).TimeFits row) ↔
      TimesFit (view s) results := by
  rw [← timesFit_iff_rows (view s) (Backend.holder? s) options results]
  refine forall₂_congr fun row hrow => ?_
  rw [Context.TimeFits, (agree_ofLookups hstored hsharing hrow).parent]
  rfl

/-- The batch that the content of a store calls for. -/
def prepared (options : ClassifyOptions) (results : List BlockResult) (s : σ) : Batch :=
  classified (view s) (Backend.holder? s) options results

/-- A classification answers what the content of the store calls for, unless it breaks off, and
writes nothing. -/
theorem prepare_on (options : ClassifyOptions) (results : List BlockResult) (s : σ) :
    (prepare options results).on s =
      (if TimesFit (view s) results then .ok (prepared options results s)
        else .error .overflow, s) := by
  rw [prepare, siftAll_eq]
  dsimp only
  cases good : goodBlocks results with
  | nil =>
    have fits : TimesFit (view s) results := by simp [TimesFit, good]
    rw [if_pos fits]
    simp [prepared, classified, good, completedRows, transactionsOf, distinct, blockIssues]
  | cons first rest =>
    rw [← good]
    have nonempty : ((goodBlocks results).map fun b => (b, rowOf options b)).isEmpty = false := by
      rw [good]
      rfl
    have rows : ((goodBlocks results).map fun b => (b, rowOf options b)).map (·.2) =
        openRows options results := by
      rw [openRows, List.map_map]
      rfl
    obtain ⟨stored, hon, hstored⟩ := getBlocks_on s (lookupNumbers (openRows options results))
    obtain ⟨sharing, hon', _, hsharing⟩ :=
      getBlocksByHashes_on s ((openRows options results).map BlockRow.hash)
    rw [nonempty, if_neg Bool.false_ne_true, rows, Effect.on_bind_ok (Effect.on_checked_ok hon),
      Effect.on_bind_ok (Effect.on_checked_ok hon')]
    by_cases fits : TimesFit (view s) results
    case neg =>
      rw [Effect.on_outOfRange (fits ∘ (timesFit_ofLookups options hstored hsharing).mp), if_neg fits]
    rw [Effect.on_inRange ((timesFit_ofLookups options hstored hsharing).mpr fits), if_pos fits,
      addBlocks_ofLookups options results _ hstored hsharing, addBlocks, foldl_addBlock,
      ← distinct]
    dsimp only
    cases txs : distinct (transactionsOf options (goodBlocks results)) with
    | nil => simp [prepared, classified, txs]
    | cons tx more =>
      rw [← txs]
      obtain ⟨known, hon, hknown⟩ := getTransactions_on s
        ((distinct (transactionsOf options (goodBlocks results))).map TransactionRow.hash)
      have nonempty : (distinct (transactionsOf options (goodBlocks results))).isEmpty = false := by
        rw [txs]
        rfl
      rw [nonempty, if_neg Bool.false_ne_true, Effect.on_bind_ok (Effect.on_checked_ok hon),
        Effect.on_pure]
      have known_eq := List.foldl_ext (placeTransaction (lastWith? TransactionRow.hash known))
        (placeTransaction (view s).transaction?)
      rw [known_eq, foldl_placeTransaction]
      · simp only [prepared, classified, List.nil_append, Nat.zero_add]
      · intro b tx htx
        rw [placeTransaction, placeTransaction,
          lastWith?_of_lookup (fun _ _ => transaction_hash) hknown (List.mem_map_of_mem htx)]

section Prepare

variable {options : ClassifyOptions} {results : List BlockResult} {s : σ}

theorem prepare_ok (fits : TimesFit (view s) results) :
    (prepare options results).on s = (.ok (prepared options results s), s) := by
  rw [prepare_on, if_pos fits]

theorem prepare_overflow (unfit : ¬ TimesFit (view s) results) :
    (prepare options results).on s = (.error .overflow, s) := by
  rw [prepare_on, if_neg unfit]

theorem of_prepare_ok {b : Batch} {left : σ}
    (done : (prepare options results).on s = (.ok b, left)) :
    TimesFit (view s) results ∧ b = prepared options results s ∧ left = s := by
  by_cases fits : TimesFit (view s) results
  · cases (prepare_ok fits).symm.trans done
    exact ⟨fits, rfl, rfl⟩
  · cases (prepare_overflow fits).symm.trans done

end Prepare

end ChainIndex.Batch
