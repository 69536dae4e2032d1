import ChainIndex.Proofs.Store.View
import ChainIndex.Store.Location

/-!
# The stores are lawful

The store in memory, the store of signed columns and a store of either kind meet
`LawfulBackend`.  Only the store in memory has writes that fail.
-/

namespace ChainIndex

theorem mem_filterMap_lookup {κ ρ : Type} {keyOf : ρ → κ} {lookup : κ → Option ρ}
    (hkey : ∀ k r, lookup k = some r → keyOf r = k) {keys : List κ} {row : ρ} :
    row ∈ keys.filterMap lookup ↔ keyOf row ∈ keys ∧ lookup (keyOf row) = some row := by
  rw [List.mem_filterMap]
  constructor
  · rintro ⟨k, hk, found⟩
    have same := hkey k row found
    exact ⟨same ▸ hk, same ▸ found⟩
  · exact fun ⟨hk, found⟩ => ⟨keyOf row, hk, found⟩

/-! ## The store in memory -/

namespace MemoryStore

/-- The content of a store in memory. -/
def view (m : MemoryStore) : View := ⟨m.block?, m.transaction?, m.checkpoint, m.log⟩

theorem view_empty : ({} : MemoryStore).view = .empty :=
  View.ext rfl rfl (funext fun kind => by cases kind <;> rfl) rfl

/-- No kind of write was made to fail. -/
def Sturdy (m : MemoryStore) : Prop := m.failing = []

/-- The checkpoint after a number is saved: the greater of two. -/
def raised (m : MemoryStore) (kind : CheckpointKind) (n : UInt64) : UInt64 :=
  match m.checkpoint kind with
  | some old => max old n
  | none => n

theorem view_raise (m : MemoryStore) (kind : CheckpointKind) (n : UInt64) :
    (m.raise kind n).view = m.view.setCheckpoint kind (m.raised kind n) := by
  refine View.ext ?_ ?_ ?_ ?_
  · cases kind <;> rfl
  · cases kind <;> rfl
  · funext k
    cases kind <;> cases k <;> rfl
  · cases kind <;> rfl

theorem raised_eq (m : MemoryStore) (kind : CheckpointKind) (n : UInt64) :
    m.raised kind n = n ∨ m.checkpoint kind = some (m.raised kind n) := by
  rw [raised]
  cases m.checkpoint kind with
  | none => exact .inl rfl
  | some old =>
    simp only [max]
    split
    · exact .inl rfl
    · exact .inr rfl

theorem block_number {m : MemoryStore} {n : UInt64} {row : BlockRow} (h : m.block? n = some row) :
    row.number = n := (Table.get?_some h).2

theorem transaction_hash {m : MemoryStore} {h : String} {tx : TransactionRow}
    (found : m.transaction? h = some tx) : tx.hash = h := (Table.get?_some found).2

theorem holder?_eq (m : MemoryStore) (hash : String) :
    Backend.holder? m hash = (lastWith? BlockRow.hash m.blocks.rows hash).map BlockRow.number := by
  have found : (Backend.getBlocksByHashes [hash]).on m =
      (.ok (m.blocks.rows.filter fun row => [hash].contains row.hash), m) := rfl
  rw [Backend.holder?, found]
  simp only
  rw [lastWith?_filter]
  exact fun r _ hr => List.contains_iff_mem.mpr (List.mem_singleton.mpr hr)

theorem holder?_congr {m m' : MemoryStore} (h : m.view.block? = m'.view.block?) :
    Backend.holder? m = Backend.holder? m' := by
  have same : m.blocks = m'.blocks := Table.ext_get? fun n => congrFun h n
  funext hash
  rw [holder?_eq, holder?_eq, same]

/-- A write of some kind, for a change that leaves the failing kinds as they are. -/
theorem writes {α : Type} {m m' : MemoryStore} {a : α} {f : MemoryStore → α × MemoryStore}
    {after : View} (point : FailPoint) (hf : f m = (a, m')) (hfailing : m'.failing = m.failing)
    (hview : m'.view = after) : Writes view Sturdy (write point f) m a after := by
  by_cases broken : m.failing.contains point = true
  · refine .inr ⟨?_, "injected failure: " ++ point.name, ?_⟩
    · intro sturdy
      rw [Sturdy] at sturdy
      simp [sturdy] at broken
    · rw [Effect.on, write, if_pos broken]
  · refine .inl ⟨m', ?_, hview, fun sturdy => hfailing.trans sturdy, ?_⟩
    · rw [Effect.on, write, if_neg broken, hf]
    · intro same
      exact holder?_congr ((congrArg View.block? hview).trans same)

instance : LawfulBackend MemoryStore where
  view := view
  Sturdy := Sturdy
  raised := raised
  block_number := block_number
  transaction_hash := transaction_hash
  raised_eq := raised_eq
  getBlocks_on m numbers := ⟨_, rfl, fun _ => mem_filterMap_lookup fun _ _ => block_number⟩
  getBlocksByHashes_on m hashes := by
    refine ⟨_, rfl, ?_, ?_⟩
    · intro row
      rw [List.mem_filter, Table.mem_rows_iff, List.contains_iff_mem]
      exact And.comm
    · intro h hh
      rw [holder?_eq, lastWith?_filter]
      exact fun r _ hr => List.contains_iff_mem.mpr (hr ▸ hh)
  getTransactions_on m hashes := ⟨_, rfl, fun _ => mem_filterMap_lookup fun _ _ => transaction_hash⟩
  getCheckpoint_on _ _ := rfl
  saveBlocks_on m new changed := writes .saveBlocks rfl rfl <|
    View.ext (funext fun n => Table.get?_insertAll m.blocks (new ++ changed) n) rfl rfl rfl
  saveTransactions_on m new changed := writes .saveTransactions rfl rfl <|
    View.ext rfl (funext fun h => Table.get?_insertAll m.transactions (new ++ changed) h) rfl rfl
  saveCheckpoint_on m kind n :=
    writes .saveCheckpoint rfl (by cases kind <;> rfl) (m.view_raise kind n)
  saveIssues_on _ _ := writes .saveIssues rfl rfl rfl

end MemoryStore

/-! ## The store of signed columns -/

namespace SignedStore

/-- The rows of the blocks, in the order of their signed numbers. -/
def blockRows (m : SignedStore) : List BlockRow := m.blocks.rows.map BlockColumns.row

/-- The rows of the transactions, in the order of their hashes. -/
def transactionRows (m : SignedStore) : List TransactionRow :=
  m.transactions.rows.map TransactionColumns.row

/-- The content of a store of signed columns. -/
def view (m : SignedStore) : View where
  block? n := (m.blocks.get? n.toInt64).map BlockColumns.row
  transaction? h := (m.transactions.get? h).map TransactionColumns.row
  checkpoint? kind := (m.checkpoint kind).map Int64.toUInt64
  log := m.log

/-- The checkpoint after a number is saved: the greater of two signed words. -/
def raised (m : SignedStore) (kind : CheckpointKind) (n : UInt64) : UInt64 :=
  match m.checkpoint kind with
  | some old => (greater old n.toInt64).toUInt64
  | none => n

theorem view_raise (m : SignedStore) (kind : CheckpointKind) (n : UInt64) :
    (m.raise kind n.toInt64).view = m.view.setCheckpoint kind (m.raised kind n) := by
  have stands : (match m.checkpoint kind with
      | some old => greater old n.toInt64
      | none => n.toInt64).toUInt64 = m.raised kind n := by
    rw [raised]
    cases m.checkpoint kind <;> rfl
  refine View.ext ?_ ?_ ?_ ?_
  · cases kind <;> rfl
  · cases kind <;> rfl
  · rw [← stands]
    funext k
    cases kind <;> cases k <;> rfl
  · cases kind <;> rfl

theorem raised_eq (m : SignedStore) (kind : CheckpointKind) (n : UInt64) :
    m.raised kind n = n ∨ m.view.checkpoint? kind = some (m.raised kind n) := by
  simp only [raised, view]
  cases m.checkpoint kind with
  | none => exact .inl rfl
  | some old =>
    simp only [greater]
    split
    · exact .inl rfl
    · exact .inr rfl

theorem toInt64_inj {a b : UInt64} (h : a.toInt64 = b.toInt64) : a = b := congrArg Int64.toUInt64 h

theorem block_number {m : SignedStore} {n : UInt64} {row : BlockRow}
    (h : m.view.block? n = some row) : row.number = n := by
  obtain ⟨columns, found, rfl⟩ := Option.map_eq_some_iff.mp h
  exact toInt64_inj (Table.get?_some found).2

theorem transaction_hash {m : SignedStore} {h : String} {tx : TransactionRow}
    (stored : m.view.transaction? h = some tx) : tx.hash = h := by
  obtain ⟨columns, found, rfl⟩ := Option.map_eq_some_iff.mp stored
  exact (Table.get?_some found).2

theorem mem_blockRows_iff {m : SignedStore} {row : BlockRow} :
    row ∈ m.blockRows ↔ m.view.block? row.number = some row :=
  Table.mem_map_rows_iff BlockColumns.row (fun row => row.number.toInt64) fun _ => rfl

theorem mem_transactionRows_iff {m : SignedStore} {tx : TransactionRow} :
    tx ∈ m.transactionRows ↔ m.view.transaction? tx.hash = some tx :=
  Table.mem_map_rows_iff TransactionColumns.row TransactionRow.hash fun _ => rfl

theorem blockRows_sorted (m : SignedStore) :
    m.blockRows.Pairwise fun a b => a.number.toInt64 < b.number.toInt64 :=
  List.pairwise_map.mpr m.blocks.sorted

/-! ### Lookups in chunks -/

/-- The rows that a lookup in chunks answers: those with some key among the keys. -/
theorem mem_chunks {κ ρ : Type} [DecidableEq κ] {keyOf : ρ → κ} {rows : List ρ} {keys : List κ}
    {row : ρ} :
    row ∈ (chunksOf chunk keys).flatMap (fun part => rows.filter fun r => part.contains (keyOf r)) ↔
      keyOf row ∈ keys ∧ row ∈ rows := by
  conv => rhs; rw [← chunksOf_flatten chunk keys]
  simp only [List.mem_flatMap, List.mem_filter, List.contains_iff_mem, List.mem_flatten]
  constructor
  · exact fun ⟨part, hpart, hrow, hk⟩ => ⟨⟨part, hpart, hk⟩, hrow⟩
  · exact fun ⟨⟨part, hpart, hk⟩, hrow⟩ => ⟨part, hpart, hrow, hk⟩

/-- The last row with a key that a lookup in chunks answers is the last one of the table. -/
theorem lastWith?_chunks {κ ρ : Type} [DecidableEq κ] {keyOf : ρ → κ} {rows : List ρ} {key : κ} :
    ∀ parts : List (List κ), key ∈ parts.flatten →
      lastWith? keyOf (parts.flatMap fun part => rows.filter fun r => part.contains (keyOf r)) key =
        lastWith? keyOf rows key
  | [], h => nomatch h
  | part :: rest, h => by
    have here : key ∈ part → lastWith? keyOf (rows.filter fun r => part.contains (keyOf r)) key =
        lastWith? keyOf rows key := fun hk =>
      lastWith?_filter _ fun r _ hr => List.contains_iff_mem.mpr (hr ▸ hk)
    rw [List.flatMap_cons, lastWith?_append]
    by_cases hrest : key ∈ rest.flatten
    · rw [lastWith?_chunks rest hrest]
      cases found : lastWith? keyOf rows key with
      | some _ => rfl
      | none =>
        -- no row has the key, so the first part has none either
        refine lastWith?_eq_none_iff.mpr ?_
        intro r hr
        exact lastWith?_eq_none_iff.mp found r (List.mem_filter.mp hr).1
    · have none_behind : lastWith? keyOf
          (rest.flatMap fun part => rows.filter fun r => part.contains (keyOf r)) key = none := by
        refine lastWith?_eq_none_iff.mpr fun r hr hk => hrest ?_
        obtain ⟨part, hpart, hin⟩ := List.mem_flatMap.mp hr
        have hmem := List.contains_iff_mem.mp (List.mem_filter.mp hin).2
        exact List.mem_flatten.mpr ⟨part, hpart, hk ▸ hmem⟩
      rw [none_behind, Option.none_or, here]
      exact (List.mem_append.mp (List.flatten_cons ▸ h)).resolve_right hrest

/-- A lookup by hashes, in terms of rows. -/
theorem getBlocksByHashes_eq (m : SignedStore) (hashes : List String) :
    (Backend.getBlocksByHashes hashes).on m =
      (.ok ((chunksOf chunk hashes).flatMap fun part =>
        m.blockRows.filter fun row => part.contains row.hash), m) := by
  simp only [blockRows, List.filter_map]
  rfl

theorem holder?_eq (m : SignedStore) (hash : String) :
    Backend.holder? m hash = (lastWith? BlockRow.hash m.blockRows hash).map BlockRow.number := by
  rw [Backend.holder?, getBlocksByHashes_eq]
  simp only
  rw [lastWith?_chunks]
  exact (chunksOf_flatten chunk [hash]).symm ▸ List.mem_singleton.mpr rfl

theorem holder?_congr {m m' : SignedStore} (h : m.view.block? = m'.view.block?) :
    Backend.holder? m = Backend.holder? m' := by
  have same : m.blockRows = m'.blockRows :=
    Table.rows_ext m.blockRows_sorted m'.blockRows_sorted fun row => by
      rw [mem_blockRows_iff, mem_blockRows_iff, h]
  funext hash
  rw [holder?_eq, holder?_eq, same]

/-! ### Writes -/

theorem view_putBlocks (m : SignedStore) (rows : List BlockRow) :
    { m with blocks := m.blocks.insertAll (rows.map BlockColumns.ofRow) }.view =
      m.view.putBlocks rows := by
  refine View.ext (funext fun n => ?_) rfl rfl rfl
  have signed : lastWith? (fun r => (BlockColumns.ofRow r).number) rows n.toInt64 =
      lastWith? BlockRow.number rows n := lastWith?_rename fun _ _ => toInt64_inj
  have found := Table.map_get?_insertAll_map BlockColumns.row_ofRow m.blocks rows n.toInt64
  exact found.trans (congrArg (Option.or · _) signed)

theorem view_putTransactions (m : SignedStore) (rows : List TransactionRow) :
    { m with transactions := m.transactions.insertAll (rows.map TransactionColumns.ofRow) }.view =
      m.view.putTransactions rows :=
  View.ext rfl (funext fun h =>
    Table.map_get?_insertAll_map TransactionColumns.row_ofRow m.transactions rows h) rfl rfl

theorem writes {α : Type} {m m' : SignedStore} {a : α} {f : SignedStore → α × SignedStore}
    {after : View} (hf : f m = (a, m')) (hview : m'.view = after) :
    Writes view (fun _ => True) (write f) m a after := by
  refine .inl ⟨m', ?_, hview, id, ?_⟩
  · rw [Effect.on, write, hf]
  · intro same
    exact holder?_congr ((congrArg View.block? hview).trans same)

instance : LawfulBackend SignedStore where
  view := view
  Sturdy _ := True
  raised := raised
  block_number := block_number
  transaction_hash := transaction_hash
  raised_eq := raised_eq
  getBlocks_on m numbers := by
    refine ⟨(chunksOf chunk numbers).flatMap fun part =>
      m.blockRows.filter fun row => part.contains row.number, ?_, ?_⟩
    · have signed : ∀ (part : List UInt64) (columns : BlockColumns),
          (part.map UInt64.toInt64).contains columns.number =
            part.contains columns.row.number := by
        intro part columns
        rw [Bool.eq_iff_iff, List.contains_iff_mem, List.contains_iff_mem, List.mem_map]
        constructor
        · rintro ⟨n, hn, same⟩
          have back : columns.row.number = n := congrArg Int64.toUInt64 same.symm
          exact back ▸ hn
        · exact fun hn => ⟨columns.row.number, hn, rfl⟩
      simp only [blockRows, List.filter_map, Function.comp_def, ← signed]
      rfl
    · intro row
      rw [mem_chunks, mem_blockRows_iff]
  getBlocksByHashes_on m hashes := by
    refine ⟨_, getBlocksByHashes_eq m hashes, ?_, ?_⟩
    · intro row
      rw [mem_chunks, mem_blockRows_iff]
    · intro h hh
      rw [holder?_eq, lastWith?_chunks]
      exact (chunksOf_flatten chunk hashes).symm ▸ hh
  getTransactions_on m hashes := by
    refine ⟨(chunksOf chunk hashes).flatMap fun part =>
      m.transactionRows.filter fun tx => part.contains tx.hash, ?_, ?_⟩
    · simp only [transactionRows, List.filter_map]
      rfl
    · intro tx
      rw [mem_chunks, mem_transactionRows_iff]
  getCheckpoint_on _ _ := rfl
  saveBlocks_on m new changed := writes rfl (m.view_putBlocks (new ++ changed))
  saveTransactions_on m new changed := writes rfl (m.view_putTransactions (new ++ changed))
  saveCheckpoint_on m kind n := writes rfl (m.view_raise kind n)
  saveIssues_on _ _ := writes rfl rfl

end SignedStore

/-! ## A store of either kind -/

namespace Store

/-- The content of a store of either kind. -/
def view : Store → View
  | memory m => m.view
  | signed m => m.view

/-- No write fails. -/
def Sturdy : Store → Prop
  | memory m => m.Sturdy
  | signed _ => True

/-- The checkpoint after a number is saved. -/
def raised : Store → CheckpointKind → UInt64 → UInt64
  | memory m => m.raised
  | signed m => m.raised

theorem lift_memory {α : Type} {onMemory : Action MemoryStore α} {onSigned : Action SignedStore α}
    {m m' : MemoryStore} {r : Except CrawlFault α} (h : onMemory.on m = (r, m')) :
    (lift onMemory onSigned).on (memory m) = (r, memory m') := by
  rw [Effect.on] at h
  rw [Effect.on, lift, h]

theorem lift_signed {α : Type} {onMemory : Action MemoryStore α} {onSigned : Action SignedStore α}
    {m m' : SignedStore} {r : Except CrawlFault α} (h : onSigned.on m = (r, m')) :
    (lift onMemory onSigned).on (signed m) = (r, signed m') := by
  rw [Effect.on] at h
  rw [Effect.on, lift, h]

theorem writes_memory {α : Type} {onMemory : Action MemoryStore α} {onSigned : Action SignedStore α}
    {m : MemoryStore} {a : α} {after : View}
    (h : Writes MemoryStore.view MemoryStore.Sturdy onMemory m a after) :
    Writes view Sturdy (lift onMemory onSigned) (memory m) a after :=
  h.imp (fun ⟨m', hm, h⟩ => ⟨memory m', lift_memory hm, h⟩)
    fun ⟨hfails, reason, hm⟩ => ⟨hfails, reason, lift_memory hm⟩

theorem writes_signed {α : Type} {onMemory : Action MemoryStore α} {onSigned : Action SignedStore α}
    {m : SignedStore} {a : α} {after : View}
    (h : Writes SignedStore.view (fun _ => True) onSigned m a after) :
    Writes view Sturdy (lift onMemory onSigned) (signed m) a after :=
  h.imp (fun ⟨m', hm, h⟩ => ⟨signed m', lift_signed hm, h⟩)
    fun ⟨hfails, reason, hm⟩ => ⟨hfails, reason, lift_signed hm⟩

open LawfulBackend in
instance : LawfulBackend Store where
  view := view
  Sturdy := Sturdy
  raised := raised
  block_number {s _ _} := match s with
    | memory _ => MemoryStore.block_number
    | signed _ => SignedStore.block_number
  transaction_hash {s _ _} := match s with
    | memory _ => MemoryStore.transaction_hash
    | signed _ => SignedStore.transaction_hash
  raised_eq
    | memory m => m.raised_eq
    | signed m => m.raised_eq
  getBlocks_on
    | memory m, numbers => (getBlocks_on m numbers).imp fun _ h => ⟨lift_memory h.1, h.2⟩
    | signed m, numbers => (getBlocks_on m numbers).imp fun _ h => ⟨lift_signed h.1, h.2⟩
  getBlocksByHashes_on
    | memory m, hashes => (getBlocksByHashes_on m hashes).imp fun _ h => ⟨lift_memory h.1, h.2⟩
    | signed m, hashes => (getBlocksByHashes_on m hashes).imp fun _ h => ⟨lift_signed h.1, h.2⟩
  getTransactions_on
    | memory m, hashes => (getTransactions_on m hashes).imp fun _ h => ⟨lift_memory h.1, h.2⟩
    | signed m, hashes => (getTransactions_on m hashes).imp fun _ h => ⟨lift_signed h.1, h.2⟩
  getCheckpoint_on
    | memory _, _ => rfl
    | signed _, _ => rfl
  saveBlocks_on
    | memory m, new, changed => writes_memory (saveBlocks_on m new changed)
    | signed m, new, changed => writes_signed (saveBlocks_on m new changed)
  saveTransactions_on
    | memory m, new, changed => writes_memory (saveTransactions_on m new changed)
    | signed m, new, changed => writes_signed (saveTransactions_on m new changed)
  saveCheckpoint_on
    | memory m, kind, n => writes_memory (saveCheckpoint_on m kind n)
    | signed m, kind, n => writes_signed (saveCheckpoint_on m kind n)
  saveIssues_on
    | memory m, issues => writes_memory (saveIssues_on m issues)
    | signed m, issues => writes_signed (saveIssues_on m issues)

end Store

end ChainIndex
