import Mathlib.Data.List.Pairwise
import ChainIndex.Proofs.Batch.Evidence
import ChainIndex.Proofs.Batch.Replay

/-!
# Batches without issues

A batch has no issues just where its results are `Quiet`: none failed, no block is a reorg or shares
its hash with another number, and no transaction is in two blocks.  Each of these speaks of members
of the batch, and not of their order.  Which issues a batch has does depend on the order: of two
blocks with one hash the later one is reported.
-/

namespace ChainIndex.Batch

/-! ## Transactions that move -/

theorem mem_putTransaction {txs : List TransactionRow} {tx other : TransactionRow} :
    other ∈ putTransaction txs tx → other = tx ∨ other ∈ txs := by
  rw [putTransaction]
  split
  case h_1 =>
    intro h
    obtain ⟨t, ht, rfl⟩ := List.mem_map.mp h
    split
    · exact .inl rfl
    · exact .inr ht
  case h_2 =>
    intro h
    exact (List.mem_append.mp h).elim .inr fun h => .inl (List.mem_singleton.mp h)

theorem issuesOver_eq_nil_iff {old : Option TransactionRow} {tx : TransactionRow} :
    issuesOver old tx = [] ↔ ∀ o, old = some o → o.blockNumber = tx.blockNumber := by
  cases old with
  | none => simp [issuesOver]
  | some o => simp [issuesOver, movedIssue]

/-- Transactions with the same hash are in the same block. -/
def InPlace (txs : List TransactionRow) : Prop :=
  ∀ tx ∈ txs, ∀ other ∈ txs, tx.hash = other.hash → tx.blockNumber = other.blockNumber

theorem InPlace.sameHash? {seen : List TransactionRow} {tx : TransactionRow}
    (settled : InPlace seen) :
    issuesOver (sameHash? seen tx) tx = [] ↔
      ∀ other ∈ seen, other.hash = tx.hash → other.blockNumber = tx.blockNumber := by
  rw [issuesOver_eq_nil_iff]
  constructor
  · intro quiet other hother same
    cases found : Batch.sameHash? seen tx with
    | none =>
      have absent := List.find?_eq_none.mp found other hother
      exact absurd (beq_iff_eq.mpr same) absent
    | some o =>
      have ho : o ∈ seen := List.mem_of_find?_eq_some found
      have hash : o.hash = tx.hash := beq_iff_eq.mp (List.find?_some found :)
      exact (settled other hother o ho (same.trans hash.symm)).trans (quiet o found)
  · intro all o found
    exact all o (List.mem_of_find?_eq_some found) (beq_iff_eq.mp (List.find?_some found :))

/-- Putting a transaction that does not move keeps all in place. -/
theorem InPlace.putTransaction {seen : List TransactionRow} {tx : TransactionRow}
    (settled : InPlace seen)
    (stays : ∀ other ∈ seen, other.hash = tx.hash → other.blockNumber = tx.blockNumber) :
    InPlace (Batch.putTransaction seen tx) := by
  intro x hx y hy same
  rcases mem_putTransaction hx with hx | hx <;> rcases mem_putTransaction hy with hy | hy
  · rw [hx, hy]
  · rw [hx]
    exact (stays y hy (same.symm.trans (congrArg TransactionRow.hash hx))).symm
  · rw [hy]
    exact stays x hx (same.trans (congrArg TransactionRow.hash hy))
  · exact settled x hx y hy same

theorem mem_putTransaction_self (txs : List TransactionRow) (tx : TransactionRow) :
    tx ∈ putTransaction txs tx := by
  have found := lastWith?_putTransaction txs tx tx.hash
  rw [if_pos rfl] at found
  exact (lastWith?_some found).1

theorem mem_putTransaction_of_other {txs : List TransactionRow} {tx other : TransactionRow}
    (h : other ∈ txs) (apart : other.hash ≠ tx.hash) : other ∈ putTransaction txs tx := by
  rw [putTransaction]
  split
  case h_1 => exact List.mem_map.mpr ⟨other, h, by simp [apart]⟩
  case h_2 => exact List.mem_append_left _ h

/-- Behind transactions that are in place, no transaction moves just where all are in place. -/
theorem moves_eq_nil_iff {txs : List TransactionRow} :
    ∀ {seen : List TransactionRow}, InPlace seen →
      (moves seen txs = [] ↔ InPlace (seen ++ txs)) := by
  induction txs with
  | nil => exact fun settled => iff_of_true rfl (by rwa [List.append_nil])
  | cons tx rest ih =>
    intro seen settled
    rw [moves, List.append_eq_nil_iff, settled.sameHash?]
    constructor
    · rintro ⟨stays, behind⟩
      have all := (ih (settled.putTransaction stays)).mp behind
      have self : tx ∈ Batch.putTransaction seen tx ++ rest :=
        List.mem_append_left rest (mem_putTransaction_self seen tx)
      -- a transaction that is put over stands for the one that was there
      have stand : ∀ x ∈ seen ++ tx :: rest, ∃ y ∈ Batch.putTransaction seen tx ++ rest,
          y.hash = x.hash ∧ y.blockNumber = x.blockNumber := by
        intro x hx
        rcases List.mem_append.mp hx with hx | hx
        · by_cases same : x.hash = tx.hash
          · exact ⟨tx, self, same.symm, (stays x hx same).symm⟩
          · exact ⟨x, List.mem_append_left rest (mem_putTransaction_of_other hx same), rfl, rfl⟩
        · rcases List.mem_cons.mp hx with rfl | hx
          · exact ⟨x, self, rfl, rfl⟩
          · exact ⟨x, List.mem_append_right _ hx, rfl, rfl⟩
      intro x hx y hy same
      obtain ⟨x', hx', hashX, numberX⟩ := stand x hx
      obtain ⟨y', hy', hashY, numberY⟩ := stand y hy
      rw [← numberX, ← numberY]
      exact all x' hx' y' hy' (hashX.trans (same.trans hashY.symm))
    · intro all
      have stays : ∀ other ∈ seen, other.hash = tx.hash → other.blockNumber = tx.blockNumber :=
        fun other hother => all other (List.mem_append_left _ hother) tx
          (List.mem_append_right seen List.mem_cons_self)
      refine ⟨stays, (ih (settled.putTransaction stays)).mpr ?_⟩
      have known : ∀ x ∈ Batch.putTransaction seen tx ++ rest, x ∈ seen ++ tx :: rest := by
        intro x hx
        rcases List.mem_append.mp hx with hx | hx
        · rcases mem_putTransaction hx with rfl | hx
          · exact List.mem_append_right seen List.mem_cons_self
          · exact List.mem_append_left _ hx
        · exact List.mem_append_right seen (List.mem_cons_of_mem tx hx)
      exact fun x hx y hy => all x (known x hx) y (known y hy)

theorem moves_append (seen front back : List TransactionRow) :
    moves seen (front ++ back) =
      moves seen front ++ moves (front.foldl putTransaction seen) back := by
  induction front generalizing seen with
  | nil => rfl
  | cons tx rest ih => rw [List.cons_append, moves, moves, ih, List.append_assoc, List.foldl_cons]

/-! ## Blocks -/

section Blocks

variable {c : Context} {options : ClassifyOptions}

theorem hashIssues_eq_nil_iff {hashes : List (String × UInt64)} {row : BlockRow} :
    hashIssues c hashes row = [] ↔ ∀ n, c.owner? row.hash = some n ∨
      (lastWith? Prod.fst hashes row.hash).map Prod.snd = some n → n = row.number := by
  rw [List.eq_nil_iff_forall_not_mem]
  constructor
  · intro none n named
    by_contra other
    exact none _ (mem_hashIssues.mpr ⟨n, other, rfl, named⟩)
  · intro all issue h
    obtain ⟨n, other, _, named⟩ := mem_hashIssues.mp h
    exact other (all n named)

/-- Two blocks do not share a hash under different numbers. -/
def Unshared (a b : Block) : Prop := a.hashNormalized = b.hashNormalized → a.numberWord = b.numberWord

instance : Std.Symm Unshared := ⟨fun _ _ h same => (h same.symm).symm⟩

/-- Blocks have no issues where no other number is named for their hashes, by the store or by a block
before them, no transaction moves, and none is a reorg. -/
theorem blockIssues_eq_nil_iff {blocks : List Block} {hashes : List (String × UInt64)}
    {seen : List TransactionRow} :
    blockIssues c options hashes seen blocks = [] ↔
      (∀ b ∈ blocks, ∀ n, c.owner? b.hashNormalized = some n ∨
        (lastWith? Prod.fst hashes b.hashNormalized).map Prod.snd = some n → n = b.numberWord) ∧
      blocks.Pairwise Unshared ∧ moves seen (transactionsOf options blocks) = [] ∧
      ∀ b ∈ blocks, c.reorgIssues (rowOf options b) = [] := by
  induction blocks generalizing hashes seen with
  | nil => simp [blockIssues, transactionsOf, moves]
  | cons b rest ih =>
    have last (x : Block) :
        (lastWith? Prod.fst (hashes ++ [hashEntry (rowOf options b)]) x.hashNormalized).map Prod.snd =
          if b.hashNormalized = x.hashNormalized then some b.numberWord
          else (lastWith? Prod.fst hashes x.hashNormalized).map Prod.snd := by
      rw [lastWith?_append, lastWith?_singleton, hashEntry, rowOf_hash, rowOf_number]
      split <;> rfl
    simp only [blockIssues, List.append_eq_nil_iff, hashIssues_eq_nil_iff, ih, rowOf_hash,
      rowOf_number, last, List.forall_mem_cons, List.pairwise_cons]
    rw [transactionsOf_cons options b rest, moves_append, List.append_eq_nil_iff]
    constructor
    · rintro ⟨⟨⟨here, moves⟩, reorg⟩, behind, unshared, moves', reorgs⟩
      have shares : ∀ x ∈ rest, Unshared b x := fun x hx same =>
        behind x hx b.numberWord (.inr (if_pos same))
      refine ⟨⟨here, fun x hx n named => ?_⟩, ⟨shares, unshared⟩, ⟨moves, moves'⟩, reorg, reorgs⟩
      by_cases same : b.hashNormalized = x.hashNormalized
      · exact (here n (same ▸ named)).trans (shares x hx same)
      · exact behind x hx n (named.imp_right (if_neg same).trans)
    · rintro ⟨⟨here, behind⟩, ⟨shares, unshared⟩, ⟨moves, moves'⟩, reorg, reorgs⟩
      refine ⟨⟨⟨here, moves⟩, reorg⟩, fun x hx n named => ?_, unshared, moves', reorgs⟩
      -- behind the first block its hash names it, and any other hash names what it did before
      rcases named with owner | earlier
      · exact behind x hx n (.inl owner)
      · by_cases same : b.hashNormalized = x.hashNormalized
        · rw [if_pos same] at earlier
          exact (Option.some.inj earlier).symm.trans (shares x hx same)
        · exact behind x hx n (.inr ((if_neg same).symm.trans earlier))

end Blocks

/-! ## The whole batch -/

/-- There is nothing odd about results, whose transactions are given. -/
structure Quiet (v : View) (holder? : String → Option UInt64) (results : List BlockResult)
    (txs : List TransactionRow) : Prop where
  failures : ∀ r ∈ results, siftIssue? r = none
  reorgs : ∀ b ∈ goodBlocks results, v.reorg? b.numberWord b.hashNormalized = none
  holders : ∀ b ∈ goodBlocks results, ∀ n, holder? b.hashNormalized = some n → n = b.numberWord
  hashes : ∀ a ∈ goodBlocks results, ∀ b ∈ goodBlocks results, Unshared a b
  inPlace : InPlace txs
  stored : ∀ tx ∈ txs, ∀ old, v.transaction? tx.hash = some old → old.blockNumber = tx.blockNumber

/-- Where transactions are in place, no stored one moves through the last ones of their hashes just
where none moves at all. -/
theorem storedMoves_eq_nil_iff {stored? : String → Option TransactionRow} {txs : List TransactionRow}
    (settled : InPlace txs) :
    (distinct txs).flatMap (storedMoves stored?) = [] ↔
      ∀ tx ∈ txs, ∀ old, stored? tx.hash = some old → old.blockNumber = tx.blockNumber := by
  simp only [List.flatMap_eq_nil_iff, storedMoves, issuesOver_eq_nil_iff]
  constructor
  · intro all tx htx old found
    obtain ⟨last, hlast⟩ := Option.isSome_iff_exists.mp (lastWith?_isSome htx (rfl : tx.hash = tx.hash))
    obtain ⟨mem, same⟩ := lastWith?_some hlast
    have kept : last ∈ distinct txs := mem_distinct_iff.mpr (same ▸ hlast)
    exact (all last kept old (same ▸ found)).trans (settled last mem tx htx same)
  · intro all tx htx
    exact all tx (lastWith?_some (mem_distinct_iff.mp htx)).1

/-- A batch has no issues just where its results are quiet. -/
theorem issues_eq_nil_iff {v : View} {holder? : String → Option UInt64} {options : ClassifyOptions}
    {results : List BlockResult} :
    (classified v holder? options results).issues = [] ↔
      Quiet v holder? results (transactionsOf options (goodBlocks results)) := by
  have failures : results.filterMap siftIssue? = [] ↔ ∀ r ∈ results, siftIssue? r = none :=
    List.filterMap_eq_nil_iff
  have unshared : (goodBlocks results).Pairwise Unshared ↔
      ∀ a ∈ goodBlocks results, ∀ b ∈ goodBlocks results, Unshared a b := by
    refine ⟨fun h a ha b hb => ?_, List.pairwise_of_forall_mem_list⟩
    exact List.Pairwise.forall_of_forall (fun _ _ _ => rfl) h ha hb
  have reorgs (b : Block) : (contextOf v holder? options results).reorgIssues (rowOf options b) = [] ↔
      v.reorg? b.numberWord b.hashNormalized = none := by
    rw [reorgIssues_rowOf, Option.toList_eq_nil_iff]
  have nothing : InPlace [] := nofun
  simp only [classified, List.append_eq_nil_iff, failures, blockIssues_eq_nil_iff, unshared, reorgs,
    lastWith?_nil, Option.map_none, reduceCtorEq, or_false, moves_eq_nil_iff nothing,
    List.nil_append]
  constructor
  · rintro ⟨⟨failures, holders, hashes, settled, reorgs⟩, stored⟩
    exact ⟨failures, reorgs, holders, hashes, settled, (storedMoves_eq_nil_iff settled).mp stored⟩
  · rintro ⟨failures, reorgs, holders, hashes, settled, stored⟩
    exact ⟨⟨failures, holders, hashes, settled, reorgs⟩, (storedMoves_eq_nil_iff settled).mpr stored⟩

end ChainIndex.Batch
