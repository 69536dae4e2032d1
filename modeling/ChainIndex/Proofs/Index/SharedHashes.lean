import ChainIndex.Proofs.Batch.Replay
import ChainIndex.Proofs.Index.NoGap

/-!
# Every shared hash is on record

Two blocks may be stored with one hash.  Where they are, the log has an issue of that hash, seen
at one of the two, whatever was written before and wherever a write failed.

A classification looks at less than that.  The store names one number for a hash, where several
may have it, and a batch knows no more than the last number that it has seen with a hash.  The
invariant `SharedOnRecord` makes up for it.

* A row of the batch and a row that stays: the store names some number for the hash.  Either that
  is another one than that of the new row, and there is an issue, or the hash was shared before.
* Two rows of the batch: behind the first of them, the last number seen with the hash is not that
  of the other one, up to the block where that stands for the first time.
* The issues of a batch are written before its rows.
-/

namespace ChainIndex

variable {σ : Type} [Backend σ] [LawfulBackend σ]

open LawfulBackend

/-! ## The number that a store names -/

/-- The number that a store names for a hash is stored with it. -/
theorem stored_of_holder {s : σ} {hash : String} {n : UInt64}
    (named : Backend.holder? s hash = some n) :
    ∃ row, (view s).block? n = some row ∧ row.hash = hash := by
  obtain ⟨rows, _, hrows, last⟩ := getBlocksByHashes_on s [hash]
  have found := (last hash List.mem_cons_self).trans named
  obtain ⟨row, hlast, rfl⟩ := Option.map_eq_some_iff.mp found
  obtain ⟨hrow, shared⟩ := lastWith?_some hlast
  exact ⟨row, ((hrows row).mp hrow).2, shared⟩

/-- A store names a number for every hash that it has. -/
theorem exists_holder {s : σ} {n : UInt64} {row : BlockRow}
    (stored : (view s).block? n = some row) : ∃ m, Backend.holder? s row.hash = some m := by
  obtain ⟨rows, _, hrows, last⟩ := getBlocksByHashes_on s [row.hash]
  have number := block_number stored
  have hrow : row ∈ rows := (hrows row).mpr ⟨List.mem_cons_self, by rwa [number]⟩
  have last? : (lastWith? BlockRow.hash rows row.hash).isSome := lastWith?_isSome hrow rfl
  obtain ⟨m, found⟩ := Option.isSome_iff_exists.mp last?
  exact ⟨m.number, (last row.hash List.mem_cons_self).symm.trans (by rw [found, Option.map_some])⟩

/-! ## The invariant -/

/-- The log has an issue of a hash that is shared, seen at a number. -/
def Shared (log : List Issue) (hash : String) (n : UInt64) : Prop :=
  ∃ m, m ≠ n ∧ Recorded log (Issue.duplicatedBlockHash hash n m)

/-- Where two numbers are stored with one hash, it is on record for one of them. -/
def View.SharedOnRecord (v : View) : Prop :=
  ∀ n k row row', v.block? n = some row → v.block? k = some row' → n ≠ k → row.hash = row'.hash →
    Shared v.log row.hash n ∨ Shared v.log row.hash k

theorem Shared.mono {log log' : List Issue} {hash : String} {n : UInt64} (h : Shared log hash n)
    (kept : ∀ issue, Recorded log issue → Recorded log' issue) : Shared log' hash n := by
  obtain ⟨m, other, recorded⟩ := h
  exact ⟨m, other, kept _ recorded⟩

theorem View.SharedOnRecord.congr {v v' : View} (h : v.SharedOnRecord)
    (rows : v'.block? = v.block?) (kept : ∀ issue, Recorded v.log issue → Recorded v'.log issue) :
    v'.SharedOnRecord := by
  intro n k row row' hn hk other shared
  rw [rows] at hn hk
  exact (h n k row row' hn hk other shared).imp (·.mono kept) (·.mono kept)

/-! ## The issues of a batch -/

namespace Batch

section Blocks

variable {c : Context} {options : ClassifyOptions} {hashes : List (String × UInt64)}
  {seen : List TransactionRow} {blocks : List Block} {log : List Issue}

/-- A block has an issue where the store or the batch names another number for its hash. -/
theorem mem_blockIssues_of_named {b : Block} {n : UInt64} (hb : b ∈ blocks)
    (named : c.owner? (rowOf options b).hash = some n) (other : n ≠ (rowOf options b).number) :
    Issue.duplicatedBlockHash (rowOf options b).hash (rowOf options b).number n ∈
      blockIssues c options hashes seen blocks := by
  induction blocks generalizing hashes seen with
  | nil => cases hb
  | cons first rest ih =>
    simp only [blockIssues, List.mem_append]
    rcases List.mem_cons.mp hb with rfl | hb
    · exact .inl (.inl (.inl (mem_hashIssues.mpr ⟨n, other, rfl, .inl named⟩)))
    · exact .inr (ih hb)

/-- Behind another number with its hash, a block has an issue where it stands for the first
time. -/
theorem shared_of_seen {b : Block} {m : UInt64} (hb : b ∈ blocks)
    (before : (lastWith? Prod.fst hashes (rowOf options b).hash).map Prod.snd = some m)
    (other : m ≠ (rowOf options b).number)
    (recorded : ∀ i ∈ blockIssues c options hashes seen blocks, Recorded log i) :
    Shared log (rowOf options b).hash (rowOf options b).number := by
  induction blocks generalizing hashes seen m with
  | nil => cases hb
  | cons first rest ih =>
    simp only [blockIssues, List.forall_mem_append] at recorded
    obtain ⟨⟨⟨here, _⟩, _⟩, behind⟩ := recorded
    by_cases shares : (rowOf options first).hash = (rowOf options b).hash
    · by_cases same : (rowOf options first).number = (rowOf options b).number
      · rw [← shares] at before ⊢
        rw [← same] at other ⊢
        exact ⟨m, other, here _ (mem_hashIssues.mpr ⟨m, other, rfl, .inr before⟩)⟩
      · have hb : b ∈ rest := by
          refine (List.mem_cons.mp hb).resolve_left ?_
          rintro rfl
          exact same rfl
        refine ih hb ?_ same behind
        rw [lastWith?_append, hashEntry, lastWith?_singleton, if_pos shares]
        rfl
    · have hb : b ∈ rest := by
        refine (List.mem_cons.mp hb).resolve_left ?_
        rintro rfl
        exact shares rfl
      refine ih hb ?_ other behind
      rw [lastWith?_append, hashEntry, lastWith?_singleton, if_neg shares]
      exact before

/-- Of two blocks with one hash and two numbers, one has an issue. -/
theorem shared_of_two {b b' : Block} (hb : b ∈ blocks) (hb' : b' ∈ blocks)
    (shared : (rowOf options b).hash = (rowOf options b').hash)
    (other : (rowOf options b).number ≠ (rowOf options b').number)
    (recorded : ∀ i ∈ blockIssues c options hashes seen blocks, Recorded log i) :
    Shared log (rowOf options b).hash (rowOf options b).number ∨
      Shared log (rowOf options b).hash (rowOf options b').number := by
  induction blocks generalizing hashes seen with
  | nil => cases hb
  | cons first rest ih =>
    simp only [blockIssues, List.forall_mem_append] at recorded
    have behind := recorded.2
    -- behind the block that comes first, its number is the last one seen with the hash
    have last (x : Block) : (lastWith? Prod.fst (hashes ++ [hashEntry (rowOf options x)])
        (rowOf options x).hash).map Prod.snd = some (rowOf options x).number := by
      rw [lastWith?_append, hashEntry, lastWith?_singleton, if_pos rfl]
      rfl
    rcases List.mem_cons.mp hb with rfl | later
    · rcases List.mem_cons.mp hb' with rfl | later'
      · exact absurd rfl other
      · right
        rw [shared]
        exact shared_of_seen later' (shared ▸ last b) other behind
    · rcases List.mem_cons.mp hb' with rfl | later'
      · exact .inl (shared_of_seen later (shared ▸ last b') (Ne.symm other) behind)
      · exact ih later later' behind

end Blocks

section Stage

variable {s : σ} {options : ClassifyOptions} {results : List BlockResult}

/-- A row of the batch and a row that stays. -/
theorem shared_of_stays {log : List Issue} (h : (view s).SharedOnRecord)
    (kept : ∀ i, Recorded (view s).log i → Recorded log i)
    (recorded : ∀ i ∈ blockIssues (contextOf (view s) (Backend.holder? s) options results) options
      [] [] (goodBlocks results), Recorded log i)
    {b : Block} (hb : b ∈ goodBlocks results) {k : UInt64} {row : BlockRow}
    (stays : (view s).block? k = some row) (other : b.numberWord ≠ k)
    (shared : (rowOf options b).hash = row.hash) :
    Shared log row.hash b.numberWord ∨ Shared log row.hash k := by
  obtain ⟨m, named⟩ := exists_holder stays
  by_cases own : m = b.numberWord
  · -- then the number of the block was stored with this hash before
    obtain ⟨old, stored, same⟩ := stored_of_holder named
    rw [← same]
    rw [own] at stored
    exact (h b.numberWord k old row stored stays other same).imp (·.mono kept) (·.mono kept)
  · rw [← shared] at named ⊢
    rw [← rowOf_number options b] at own ⊢
    exact .inl ⟨m, own, recorded _ (mem_blockIssues_of_named hb named own)⟩

/-- Every stage of a batch keeps the invariant. -/
theorem sharedOnRecord_stage (h : (view s).SharedOnRecord) (k : Nat) :
    ((prepared options results s).stage (view s) k).SharedOnRecord := by
  by_cases none : k = 0
  · rw [none]
    exact h
  have log : ((prepared options results s).stage (view s) k).log =
      (appendIssues (view s).log (prepared options results s).issues).2 := by
    rw [log_stage, if_neg none]
  have kept (i : Issue) (hi : Recorded (view s).log i) :
      Recorded ((prepared options results s).stage (view s) k).log i := by
    rw [log]
    exact recorded_appendIssues.mpr (.inl hi)
  have recorded (i : Issue) (hi : i ∈ blockIssues
      (contextOf (view s) (Backend.holder? s) options results) options [] [] (goodBlocks results)) :
      Recorded ((prepared options results s).stage (view s) k).log i := by
    rw [log]
    exact recorded_appendIssues.mpr
      (.inr (.of_mem (List.mem_append_left _ (List.mem_append_right _ hi))))
  intro n n' row row' hn hn' other shared
  rcases row_of_stage hn with stays | ⟨b, hb, rfl, rfl⟩
  · rcases row_of_stage hn' with stays' | ⟨b', hb', rfl, rfl⟩
    · exact (h n n' row row' stays stays' other shared).imp (·.mono kept) (·.mono kept)
    · exact (shared_of_stays h kept recorded hb' stays (Ne.symm other) shared.symm).symm
  · rcases row_of_stage hn' with stays' | ⟨b', hb', rfl, rfl⟩
    · rw [shared]
      exact shared_of_stays h kept recorded hb stays' other shared
    · rw [Context.complete_hash] at shared ⊢
      rw [← rowOf_number options b, ← rowOf_number options b'] at other ⊢
      exact shared_of_two hb hb' shared other recorded

end Stage

end Batch

/-! ## What an empty store becomes -/

/-- What an empty store becomes, where batches of any blocks are written to it and any write may
fail. -/
inductive Stocked : σ → Prop
  /-- The store is empty. -/
  | fresh {s : σ} (empty : view s = .empty) : Stocked s
  /-- Any results are classified and persisted, as far as the writes succeed. -/
  | batch {s : σ} (options : ClassifyOptions) (results : List BlockResult) (before : Stocked s) :
      Stocked ((Batch.pass options results).on s).2
  /-- An index run goes on with any answer. -/
  | index {before after : IndexPhase × σ} (plan : IndexPlan) (answers : Answers)
      (step : IndexStep plan answers before after) (stocked : Stocked before.2) : Stocked after.2
  /-- Blocks from elsewhere are written. -/
  | write {s : σ} (options : ClassifyOptions) (blocks : List Block) (before : Stocked s) :
      Stocked ((Batch.writeBlocks options blocks).on s).2
  /-- Anything else happens that leaves the rows of blocks alone and drops no issue.  Writes may
  begin or cease to fail. -/
  | other {s s' : σ} (rows : (view s').block? = (view s).block?)
      (log : ∀ i ∈ (view s).log, i ∈ (view s').log) (before : Stocked s) : Stocked s'

/-- A window keeps the invariant, whatever it does. -/
theorem sharedOnRecord_absorbed {plan : IndexPlan} {run : IndexRun} {last : UInt64}
    {results : List BlockResult} {s s' : σ} {result : Except Halt IndexRun}
    (h : (view s).SharedOnRecord) (done : run.Absorbed plan last results s result s') :
    (view s').SharedOnRecord := by
  have adds (issues : List Issue) : ((view s).addIssues issues).SharedOnRecord :=
    h.congr rfl fun i hi => recorded_appendIssues.mpr (.inl hi)
  cases done with
  | stepsBack issue _ _ left =>
    rw [left]
    exact adds [issue]
  | stores _ _ rows left =>
    rw [left]
    have staged : ((Batch.prepared plan.options results s).stage (view s) 3).SharedOnRecord :=
      Batch.sharedOnRecord_stage h 3
    rw [← rows] at staged
    exact staged.congr rfl fun i hi => hi
  | givesUp issues left =>
    rw [left]
    exact adds issues
  | breaksOff k left =>
    rw [left]
    exact Batch.sharedOnRecord_stage h k

theorem Stocked.sharedOnRecord {s : σ} (h : Stocked s) : (view s).SharedOnRecord := by
  induction h with
  | fresh empty =>
    rw [empty]
    intro _ _ _ _ found
    cases found
  | @batch s options results _ ih =>
    obtain ⟨k, left⟩ := Batch.pass_leaves options results s
    rw [left]
    exact Batch.sharedOnRecord_stage ih k
  | @index before after plan answers step _ ih =>
    cases step using IndexStep.by_results with
    | head run s answer allowed => exact ih
    | uncountable => exact ih
    | window run last s answer allowed =>
      cases answer with
      | error fault => exact ih
      | ok results =>
        obtain ⟨result, s', stepped, done⟩ := IndexPhase.onWindow_ok plan run last results s
        rw [stepped]
        exact sharedOnRecord_absorbed ih done.absorbed
  | @write s options blocks _ ih =>
    obtain ⟨k, left⟩ := writeBlocks_on options blocks s
    rw [left]
    exact Batch.sharedOnRecord_stage ih k
  | other rows log _ ih =>
    refine ih.congr rows ?_
    rintro issue ⟨i, hi, same⟩
    exact ⟨i, log i hi, same⟩

/-- Where two numbers are stored with one hash, the log has the checksum of an issue of that hash,
seen at one of the two. -/
theorem shared_hash_on_record {s : σ} (h : Stocked s) {n k : UInt64} {row row' : BlockRow}
    (hn : (view s).block? n = some row) (hk : (view s).block? k = some row') (other : n ≠ k)
    (shared : row.hash = row'.hash) :
    ∃ m, m ≠ n ∧ Recorded (view s).log (Issue.duplicatedBlockHash row.hash n m) ∨
      m ≠ k ∧ Recorded (view s).log (Issue.duplicatedBlockHash row.hash k m) := by
  rcases h.sharedOnRecord n k row row' hn hk other shared with ⟨m, seen⟩ | ⟨m, seen⟩
  · exact ⟨m, .inl seen⟩
  · exact ⟨m, .inr seen⟩

/-- Two blocks with one hash in one batch. -/
theorem shared_hash_on_record_of_twins : ∃ (s : MemoryStore) (row row' : BlockRow), Stocked s ∧
    (view s).block? 1 = some row ∧ (view s).block? 2 = some row' ∧ row.hash = row'.hash ∧
    ∃ m, m ≠ 1 ∧ Recorded (view s).log (Issue.duplicatedBlockHash row.hash 1 m) ∨
      m ≠ 2 ∧ Recorded (view s).log (Issue.duplicatedBlockHash row.hash 2 m) := by
  have stocked : Stocked ((Batch.pass ⟨false, false⟩ Batch.twins).on ({} : MemoryStore)).2 :=
    .batch _ _ (.fresh MemoryStore.view_empty)
  rw [Batch.pass_on _ Batch.twins_fit, Effect.on_checked] at stocked
  generalize left : ((Batch.prepared ⟨false, false⟩ Batch.twins ({} : MemoryStore)).persist.on
    ({} : MemoryStore)).2 = s at stocked
  have hash (n : UInt64) (hn : n = 1 ∨ n = 2) :
      ((view s).block? n).map BlockRow.hash = some "0xab" := by
    rw [← left]
    rcases hn with rfl | rfl
    · decide +kernel
    · decide +kernel
  obtain ⟨row, first, same⟩ := Option.map_eq_some_iff.mp (hash 1 (.inl rfl))
  obtain ⟨row', second, same'⟩ := Option.map_eq_some_iff.mp (hash 2 (.inr rfl))
  have shared := same.trans same'.symm
  exact ⟨s, row, row', stocked, first, second, shared,
    shared_hash_on_record stocked first second (by decide) shared⟩

end ChainIndex
