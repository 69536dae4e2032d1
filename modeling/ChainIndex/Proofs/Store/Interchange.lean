import ChainIndex.Proofs.Batch.Classification
import ChainIndex.Proofs.Json.RoundTrip
import ChainIndex.Proofs.Store.Lawful

/-!
# The two kinds of store are interchangeable

The store in memory keeps rows as they are and answers in the order asked.  The store of signed
columns turns numbers into signed words and extras into text, splits a lookup into chunks, and
answers in the order of its tables.  Still no caller can tell them apart: after the same writes to
two empty stores, they are `Alike`.

* A row comes back from its columns, and so does an issue that was made for evidence.
* Numbers below `2 ^ 63` keep their order as signed words.  So the two tables of blocks have the
  same rows in the same order, the same number is named for a hash that several blocks share, and
  a checkpoint is raised alike.
-/

namespace ChainIndex

/-! ## Issues -/

/-- An issue that was made for some evidence, seen at any time. -/
inductive Issue.Made : Issue → Prop
  | reorg (number : UInt64) (old new : String) (seen : Int64) :
      Made { Issue.reorg number old new with observedAt := seen }
  | duplicatedBlockHash (hash : String) (number previous : UInt64) (seen : Int64) :
      Made { Issue.duplicatedBlockHash hash number previous with observedAt := seen }
  | duplicatedTxHash (tx : String) (number : UInt64) (hash : String) (previous : UInt64)
      (previousHash : String) (seen : Int64) :
      Made { Issue.duplicatedTxHash tx number hash previous previousHash with observedAt := seen }
  | failure (number : UInt64) (hash tx reason : String) (seen : Int64) :
      Made { Issue.failure number hash tx reason with observedAt := seen }

/-- The extras of an issue come back from their text. -/
theorem Issue.Made.exact {i : Issue} (h : i.Made) (depth : Nat) :
    Json.Exact (depth + 1) (.obj i.extras) := by
  have word (n : UInt64) : Json.Exact depth (.word n) := Json.Exact.word n
  have str (s : String) : Json.Exact depth (.str s) := .str s
  cases h with
  | reorg =>
    refine Json.Exact.insertMember ?_ (word _)
    exact .obj (Json.ascending_of_keys ["prevBlockHash"] rfl (by decide)) (by simp [str])
  | duplicatedBlockHash =>
    refine Json.Exact.insertMember ?_ (word _)
    refine .obj (Json.ascending_of_keys ["prevBlockNumber", "prevBlockNumberHex"] rfl ?_) ?_
    · decide
    · simp [str, word]
  | duplicatedTxHash =>
    refine Json.Exact.insertMember ?_ (word _)
    refine .obj (Json.ascending_of_keys
      ["prevBlockHash", "prevBlockNumber", "prevBlockNumberHex"] rfl ?_) ?_
    · decide
    · simp [str, word]
  | failure =>
    refine Json.Exact.insertMember ?_ (word _)
    exact .obj (Json.ascending_of_keys ["error"] rfl (by decide)) (by simp [str])

/-- An issue that was made for some evidence comes back from its columns. -/
theorem IssueColumns.issue_ofIssue {i : Issue} (h : i.Made) : (ofIssue i).issue = .ok i := by
  have kind : IssueKind.ofName i.kind.name = .ok i.kind := by
    cases i.kind <;> rfl
  have extras : readText (Source.readMap Source.readAny) (Json.obj i.extras).render =
      .ok i.extras := Source.readText_render (h.exact 126)
  simp only [issue, ofIssue, kind, extras]
  rfl

theorem IssueColumns.issues_ofIssues {log : List Issue} (h : ∀ i ∈ log, i.Made) :
    (log.map ofIssue).mapM issue = .ok log := by
  induction log with
  | nil => rfl
  | cons i log ih =>
    obtain ⟨here, rest⟩ := List.forall_mem_cons.mp h
    rw [List.map_cons, List.mapM_cons, issue_ofIssue here, ih rest]
    rfl

/-! ## Small numbers -/

/-- Numbers that are no negative columns. -/
def Small (n : UInt64) : Prop := n < 0x8000000000000000

instance (n : UInt64) : Decidable (Small n) := inferInstanceAs (Decidable (_ < _))

/-- Small numbers keep their order as signed words. -/
theorem Small.toInt64_lt {a b : UInt64} (ha : Small a) (hb : Small b) :
    a.toInt64 < b.toInt64 ↔ a < b := by
  have signed {n : UInt64} (h : Small n) : n.toInt64.toInt = n.toNat := by
    have below : n.toNat < 0x8000000000000000 := UInt64.lt_iff_toNat_lt.mp h
    have twice : 2 * n.toBitVec.toNat < 2 ^ 64 := by
      have : n.toBitVec.toNat = n.toNat := rfl
      omega
    exact BitVec.toInt_eq_toNat_of_lt twice
  rw [Int64.lt_iff_toInt_lt, signed ha, signed hb, UInt64.lt_iff_toNat_lt, Int.ofNat_lt]

/-- The greater of a number and the checkpoint that stands. -/
def View.raised (v : View) (kind : CheckpointKind) (n : UInt64) : UInt64 :=
  match v.checkpoint? kind with
  | some old => max old n
  | none => n

/-- Signed columns raise a checkpoint to the greater number, where both are small. -/
theorem SignedStore.raised_of_small {s : SignedStore} {kind : CheckpointKind} {n : UInt64}
    (small : Small n) (stands : ∀ c, s.view.checkpoint? kind = some c → Small c) :
    s.raised kind n = s.view.raised kind n := by
  rw [raised, View.raised]
  simp only [view] at stands ⊢
  cases found : s.checkpoint kind with
  | none => rfl
  | some old =>
    have before : Small old.toUInt64 := stands _ (congrArg (Option.map Int64.toUInt64) found)
    have order : old < n.toInt64 ↔ old.toUInt64 < n := before.toInt64_lt small
    simp only [Option.map_some, greater, max]
    by_cases below : old.toUInt64 < n
    · rw [if_pos (order.mpr below), if_pos (UInt64.le_of_lt below)]
      rfl
    · rw [if_neg (fun less => below (order.mp less))]
      by_cases equal : old.toUInt64 ≤ n
      · rw [if_pos equal]
        exact UInt64.le_antisymm equal (UInt64.not_lt.mp below)
      · rw [if_neg equal]

/-- What a store holds has small numbers and issues that were made for evidence. -/
structure View.Fits (v : View) : Prop where
  blocks {n : UInt64} {row : BlockRow} : v.block? n = some row → Small n
  checkpoints {kind : CheckpointKind} {n : UInt64} : v.checkpoint? kind = some n → Small n
  made : ∀ i ∈ v.log, i.Made

namespace View.Fits

variable {v : View}

theorem empty : View.empty.Fits := ⟨nofun, nofun, nofun⟩

theorem putBlocks (h : v.Fits) {rows : List BlockRow} (small : ∀ row ∈ rows, Small row.number) :
    (v.putBlocks rows).Fits := by
  refine ⟨?_, h.checkpoints, h.made⟩
  intro n row found
  simp only [View.putBlocks, Option.or_eq_some_iff] at found
  rcases found with found | ⟨_, found⟩
  · obtain ⟨hrow, rfl⟩ := lastWith?_some found
    exact small row hrow
  · exact h.blocks found

theorem putTransactions (h : v.Fits) (rows : List TransactionRow) :
    (v.putTransactions rows).Fits := ⟨h.blocks, h.checkpoints, h.made⟩

theorem raised (h : v.Fits) {n : UInt64} (small : Small n) (kind : CheckpointKind) :
    Small (v.raised kind n) := by
  rw [View.raised]
  cases found : v.checkpoint? kind with
  | none => exact small
  | some old =>
    simp only [max]
    split
    · exact small
    · exact h.checkpoints found

theorem setCheckpoint (h : v.Fits) {n : UInt64} (small : Small n) (kind : CheckpointKind) :
    (v.setCheckpoint kind n).Fits := by
  refine ⟨h.blocks, ?_, h.made⟩
  intro k m found
  simp only [View.setCheckpoint] at found
  split at found
  · exact Option.some.inj found ▸ small
  · exact h.checkpoints found

theorem addIssues (h : v.Fits) {issues : List Issue} (made : ∀ i ∈ issues, i.Made) :
    (v.addIssues issues).Fits := by
  refine ⟨h.blocks, h.checkpoints, ?_⟩
  intro i hi
  rcases of_mem_appendIssues hi with hi | hi
  · exact h.made i hi
  · exact made i hi

end View.Fits

/-! ## Stores that cannot be told apart -/

section Alike

variable {ε σ τ α : Type}

/-- Two lookups answer the same rows, each any number of times and in any order. -/
def SameRows (onFirst : Action σ (List α)) (onSecond : Action τ (List α)) (s : σ) (t : τ) : Prop :=
  ∃ rows others, onFirst.on s = (.ok rows, s) ∧ onSecond.on t = (.ok others, t) ∧
    ∀ row, row ∈ rows ↔ row ∈ others

/-- Two lookups answer the same. -/
def SameAnswer (onFirst : Effect ε σ α) (onSecond : Effect ε τ α) (s : σ) (t : τ) : Prop :=
  ∃ a, onFirst.on s = (.ok a, s) ∧ onSecond.on t = (.ok a, t)

/-- Two stores that no lookup, no classification and no count of issues tells apart. -/
structure Alike [Backend σ] [LawfulBackend σ] [Backend τ] (s : σ) (t : τ) : Prop where
  blocks (numbers : List UInt64) :
    SameRows (Backend.getBlocks numbers) (Backend.getBlocks numbers) s t
  blocksByHashes (hashes : List String) :
    SameRows (Backend.getBlocksByHashes hashes) (Backend.getBlocksByHashes hashes) s t
  transactions (hashes : List String) :
    SameRows (Backend.getTransactions hashes) (Backend.getTransactions hashes) s t
  checkpoint (kind : CheckpointKind) :
    SameAnswer (Backend.getCheckpoint kind) (Backend.getCheckpoint kind) s t
  issues : SameAnswer Backend.issues Backend.issues s t
  added (issues : List Issue) : ∃ count s' t',
    (Backend.saveIssues issues).on s = (.ok count, s') ∧
      (Backend.saveIssues issues).on t = (.ok count, t')
  prepared (options : ClassifyOptions) (results : List BlockResult)
    (fits : Batch.TimesFit (LawfulBackend.view s) results) :
    SameAnswer (Batch.prepare options results) (Batch.prepare options results) s t
  brokenOff (options : ClassifyOptions) (results : List BlockResult)
    (unfit : ¬ Batch.TimesFit (LawfulBackend.view s) results) :
    (Batch.prepare options results).on s = (.error .overflow, s) ∧
      (Batch.prepare options results).on t = (.error .overflow, t)

end Alike

/-! ## Stores with the same content -/

open LawfulBackend

/-- A store in memory and one of signed columns with the same content, in small numbers. -/
structure Twins (m : MemoryStore) (s : SignedStore) : Prop where
  same : view m = view s
  fits : (view m).Fits
  sturdy : Sturdy m

namespace Twins

variable {m : MemoryStore} {s : SignedStore}

theorem of_empty (hm : view m = .empty) (hs : view s = .empty) (sturdy : Sturdy m) : Twins m s :=
  ⟨hm.trans hs.symm, hm ▸ .empty, sturdy⟩

/-- The blocks stand in the same order. -/
theorem blockRows (h : Twins m s) : s.blockRows = m.blocks.rows := by
  have stored {row : BlockRow} : row ∈ s.blockRows ↔ (view m).block? row.number = some row := by
    rw [SignedStore.mem_blockRows_iff, h.same]
    rfl
  refine Table.rows_ext ?_ m.blocks.sorted ?_
  · refine s.blockRows_sorted.imp_of_mem ?_
    intro a b ha hb below
    have smallA : Small a.number := h.fits.blocks (stored.mp ha)
    have smallB : Small b.number := h.fits.blocks (stored.mp hb)
    exact (smallA.toInt64_lt smallB).mp below
  · intro row
    rw [stored, Table.mem_rows_iff]
    rfl

/-- The same number is named for each hash. -/
theorem holder? (h : Twins m s) : Backend.holder? m = Backend.holder? s := by
  funext hash
  rw [MemoryStore.holder?_eq, SignedStore.holder?_eq, h.blockRows]

/-- Signed columns raise a checkpoint to the greater number. -/
theorem raised_signed (h : Twins m s) (kind : CheckpointKind) {n : UInt64} (small : Small n) :
    raised s kind n = (view m).raised kind n := by
  rw [h.same]
  refine SignedStore.raised_of_small small fun c hc => ?_
  have stands : (view m).checkpoint? kind = some c := by
    rw [h.same]
    exact hc
  exact h.fits.checkpoints stands

/-! ### What they answer -/

theorem issues_on (h : Twins m s) :
    (Backend.issues : Action SignedStore (List Issue)).on s = (.ok m.log, s) := by
  have log : m.log = s.log := congrArg View.log h.same
  have made : ∀ i ∈ s.log, i.Made := log ▸ h.fits.made
  have read : s.issueRows.mapM IssueColumns.issue = .ok s.log := IssueColumns.issues_ofIssues made
  rw [log]
  exact congrArg (fun answer => (answer, s)) read

/-- Stores with the same content cannot be told apart. -/
theorem alike (h : Twins m s) : Alike m s where
  blocks numbers := by
    obtain ⟨rows, onMemory, hrows⟩ := getBlocks_on m numbers
    obtain ⟨others, onSigned, hothers⟩ := getBlocks_on s numbers
    exact ⟨rows, others, onMemory, onSigned, fun row => by rw [hrows, hothers, h.same]⟩
  blocksByHashes hashes := by
    obtain ⟨rows, onMemory, hrows, _⟩ := getBlocksByHashes_on m hashes
    obtain ⟨others, onSigned, hothers, _⟩ := getBlocksByHashes_on s hashes
    exact ⟨rows, others, onMemory, onSigned, fun row => by rw [hrows, hothers, h.same]⟩
  transactions hashes := by
    obtain ⟨rows, onMemory, hrows⟩ := getTransactions_on m hashes
    obtain ⟨others, onSigned, hothers⟩ := getTransactions_on s hashes
    exact ⟨rows, others, onMemory, onSigned, fun tx => by rw [hrows, hothers, h.same]⟩
  checkpoint kind :=
    ⟨(view m).checkpoint? kind, getCheckpoint_on m kind, h.same ▸ getCheckpoint_on s kind⟩
  issues := ⟨m.log, rfl, h.issues_on⟩
  added issues := by
    obtain ⟨m', onMemory, _⟩ := (saveIssues_on m issues).of_sturdy h.sturdy
    obtain ⟨s', onSigned, _⟩ := (saveIssues_on s issues).of_sturdy trivial
    exact ⟨_, m', s', onMemory, by rw [onSigned, h.same]⟩
  prepared options results fits := by
    have batch : Batch.prepared options results m = Batch.prepared options results s := by
      rw [Batch.prepared, Batch.prepared, h.same, h.holder?]
    exact ⟨_, Batch.prepare_ok fits, batch ▸ Batch.prepare_ok (h.same ▸ fits)⟩
  brokenOff _ _ unfit := ⟨Batch.prepare_overflow unfit, Batch.prepare_overflow (h.same ▸ unfit)⟩

end Twins

/-! ## Writes -/

/-- A write to a store. -/
inductive StoreWrite where
  | blocks (new changed : List BlockRow)
  | transactions (new changed : List TransactionRow)
  | checkpoint (kind : CheckpointKind) (number : UInt64)
  | issues (issues : List Issue)

namespace StoreWrite

/-- A write, and the count of issues that it adds. -/
def run {σ : Type} [Backend σ] : StoreWrite → Action σ Nat
  | blocks new changed => do
    Backend.saveBlocks new changed
    return 0
  | transactions new changed => do
    Backend.saveTransactions new changed
    return 0
  | checkpoint kind number => do
    Backend.saveCheckpoint kind number
    return 0
  | issues found => Backend.saveIssues found

/-- A write of small numbers of blocks and checkpoints, and of issues that were made for
evidence. -/
def Fits : StoreWrite → Prop
  | blocks new changed => ∀ row ∈ new ++ changed, Small row.number
  | transactions _ _ => True
  | checkpoint _ number => Small number
  | issues found => ∀ i ∈ found, i.Made

/-- What a write puts into a store. -/
def put : StoreWrite → View → View
  | blocks new changed, v => v.putBlocks (new ++ changed)
  | transactions new changed, v => v.putTransactions (new ++ changed)
  | checkpoint kind number, v => v.setCheckpoint kind (v.raised kind number)
  | issues found, v => v.addIssues found

/-- What writes leave in an empty store. -/
def content (writes : List StoreWrite) : View := writes.foldl (fun v w => w.put v) .empty

theorem Fits.put {w : StoreWrite} (fits : w.Fits) {v : View} (h : v.Fits) : (w.put v).Fits := by
  cases w with
  | blocks new changed => exact h.putBlocks fits
  | transactions new changed => exact h.putTransactions (new ++ changed)
  | checkpoint kind number => exact h.setCheckpoint (h.raised fits kind) kind
  | issues found => exact h.addIssues fits

end StoreWrite

namespace Twins

variable {m : MemoryStore} {s : SignedStore} {w : StoreWrite} {writes : List StoreWrite}

/-- Two writes with the same answer and the same effect keep the content of two stores the same. -/
theorem of_writes {α : Type} (h : Twins m s) {onMemory : Action MemoryStore α}
    {onSigned : Action SignedStore α} {a : α} (fits : w.Fits)
    (memory : Writes view Sturdy onMemory m a (w.put (view m)))
    (signed : Writes view Sturdy onSigned s a (w.put (view m))) :
    ∃ m' s', onMemory.on m = (.ok a, m') ∧ onSigned.on s = (.ok a, s') ∧
      view m' = w.put (view m) ∧ Twins m' s' := by
  obtain ⟨m', doneM, hm, sturdy⟩ := memory.of_sturdy h.sturdy
  obtain ⟨s', doneS, hs, _⟩ := signed.of_sturdy trivial
  exact ⟨m', s', doneM, doneS, hm, hm.trans hs.symm, hm ▸ fits.put h.fits, sturdy⟩

/-- A write puts the same into both stores, and adds the same count of issues. -/
theorem write (h : Twins m s) (fits : w.Fits) : ∃ added m' s',
    w.run.on m = (.ok added, m') ∧ w.run.on s = (.ok added, s') ∧
      view m' = w.put (view m) ∧ Twins m' s' := by
  cases w with
  | blocks new changed =>
    have signed := saveBlocks_on s new changed
    rw [← h.same] at signed
    obtain ⟨m', s', onMemory, onSigned, twins⟩ :=
      h.of_writes fits (saveBlocks_on m new changed) signed
    exact ⟨0, m', s', Effect.on_bind_ok onMemory, Effect.on_bind_ok onSigned, twins⟩
  | transactions new changed =>
    have signed := saveTransactions_on s new changed
    rw [← h.same] at signed
    obtain ⟨m', s', onMemory, onSigned, twins⟩ :=
      h.of_writes fits (saveTransactions_on m new changed) signed
    exact ⟨0, m', s', Effect.on_bind_ok onMemory, Effect.on_bind_ok onSigned, twins⟩
  | checkpoint kind number =>
    have signed := saveCheckpoint_on s kind number
    rw [← h.same, h.raised_signed kind fits] at signed
    obtain ⟨m', s', onMemory, onSigned, twins⟩ :=
      h.of_writes fits (saveCheckpoint_on m kind number) signed
    exact ⟨0, m', s', Effect.on_bind_ok onMemory, Effect.on_bind_ok onSigned, twins⟩
  | issues found =>
    have signed := saveIssues_on s found
    rw [← h.same] at signed
    obtain ⟨m', s', onMemory, onSigned, twins⟩ := h.of_writes fits (saveIssues_on m found) signed
    exact ⟨_, m', s', onMemory, onSigned, twins⟩

theorem run (fits : ∀ w ∈ writes, w.Fits) :
    ∀ {m : MemoryStore} {s : SignedStore}, Twins m s → ∃ added m' s',
      (writes.mapM StoreWrite.run).on m = (.ok added, m') ∧
        (writes.mapM StoreWrite.run).on s = (.ok added, s') ∧
          view m' = writes.foldl (fun v w => w.put v) (view m) ∧ Twins m' s' := by
  induction writes with
  | nil => exact fun {m s} h => ⟨[], m, s, rfl, rfl, rfl, h⟩
  | cons w writes ih =>
    intro m s h
    obtain ⟨here, rest⟩ := List.forall_mem_cons.mp fits
    obtain ⟨count, m₁, s₁, firstM, firstS, put, h₁⟩ := h.write here
    obtain ⟨counts, m₂, s₂, restM, restS, content, h₂⟩ := ih rest h₁
    refine ⟨count :: counts, m₂, s₂, ?_, ?_, ?_, h₂⟩
    · rw [List.mapM_cons, Effect.on_bind_ok firstM, Effect.on_bind_ok restM]
      rfl
    · rw [List.mapM_cons, Effect.on_bind_ok firstS, Effect.on_bind_ok restS]
      rfl
    · rw [content, put, List.foldl_cons]

end Twins

/-- The same writes to an empty store of each kind all succeed, add the same counts of issues,
leave in both what they put, and leave two stores that cannot be told apart. -/
theorem stores_interchangeable (writes : List StoreWrite) (fits : ∀ w ∈ writes, w.Fits) :
    ∃ added m s, (writes.mapM StoreWrite.run).on (default : MemoryStore) = (.ok added, m) ∧
      (writes.mapM StoreWrite.run).on (default : SignedStore) = (.ok added, s) ∧
      view m = StoreWrite.content writes ∧ view s = StoreWrite.content writes ∧ Alike m s := by
  have memory : view (default : MemoryStore) = .empty := MemoryStore.view_empty
  have signed : view (default : SignedStore) = .empty :=
    View.ext rfl rfl (funext fun kind => by cases kind <;> rfl) rfl
  obtain ⟨added, m, s, onMemory, onSigned, content, h⟩ :=
    Twins.run fits (.of_empty memory signed rfl)
  rw [memory] at content
  exact ⟨added, m, s, onMemory, onSigned, content, h.same.symm.trans content, h.alike⟩

/-- One write of each kind, with columns that do not fit a signed word. -/
def oneWriteEach : List StoreWrite :=
  [.blocks [{ number := 7, hash := "0xaa", size := 0xFFFFFFFFFFFFFFFF }]
      [{ number := 7, hash := "0xbb", mintDuration := some 0x8000000000000000 }],
    .transactions [{ hash := "0xcc", blockNumber := 0xFFFFFFFFFFFFFFFF }] [],
    .checkpoint .index 8,
    .issues [{ Issue.reorg 7 "0xaa" "0xbb" with observedAt := 5 }]]

theorem stores_interchangeable_of_one_write_each :
    (∀ w ∈ oneWriteEach, w.Fits) ∧
      ∃ added m s, (oneWriteEach.mapM StoreWrite.run).on (default : MemoryStore) = (.ok added, m) ∧
        (oneWriteEach.mapM StoreWrite.run).on (default : SignedStore) = (.ok added, s) ∧
        view m = StoreWrite.content oneWriteEach ∧ view s = StoreWrite.content oneWriteEach ∧
        Alike m s := by
  have fits : ∀ w ∈ oneWriteEach, w.Fits := by
    intro w hw
    simp only [oneWriteEach, List.mem_cons, List.not_mem_nil, or_false] at hw
    rcases hw with rfl | rfl | rfl | rfl
    · simp only [StoreWrite.Fits, List.mem_append, List.mem_singleton]
      rintro row (rfl | rfl) <;> decide
    · trivial
    · show Small 8
      decide
    · intro i hi
      rw [List.mem_singleton.mp hi]
      exact .reorg 7 "0xaa" "0xbb" 5
  exact ⟨fits, stores_interchangeable oneWriteEach fits⟩

end ChainIndex
