import ChainIndex.Proofs.Batch.Sift

/-!
# Transactions of a batch

A batch keeps one row per transaction hash.  `distinct` is the list that putting the rows
one after the other leaves.  It holds the last row of each hash (`mem_distinct_iff`), and no
hash twice (`distinct_nodup`).
-/

namespace ChainIndex

open TransactionRow (hash)

namespace Batch

theorem putTransaction_of_absent {txs : List TransactionRow} {tx : TransactionRow}
    (h : ∀ t ∈ txs, t.hash ≠ tx.hash) : putTransaction txs tx = txs ++ [tx] := by
  have absent : sameHash? txs tx = none := List.find?_eq_none.mpr fun t ht => by simpa using h t ht
  rw [putTransaction, absent]

theorem putTransaction_of_present {txs : List TransactionRow} {t tx : TransactionRow} (ht : t ∈ txs)
    (h : t.hash = tx.hash) :
    putTransaction txs tx = txs.map fun t => if t.hash == tx.hash then tx else t := by
  have present : (sameHash? txs tx).isSome := List.find?_isSome.mpr ⟨t, ht, by simpa using h⟩
  rw [putTransaction]
  cases found : sameHash? txs tx with
  | none => simp [found] at present
  | some _ => rfl

/-- Putting a transaction keeps the hashes apart. -/
theorem putTransaction_nodup {txs : List TransactionRow} (tx : TransactionRow)
    (h : (txs.map hash).Nodup) : ((putTransaction txs tx).map hash).Nodup := by
  by_cases present : ∃ t ∈ txs, t.hash = tx.hash
  · obtain ⟨t, ht, same⟩ := present
    have hashes : ((putTransaction txs tx).map hash) = txs.map hash := by
      rw [putTransaction_of_present ht same, List.map_map]
      refine List.map_congr_left ?_
      intro u _
      by_cases hu : u.hash = tx.hash <;> simp [hu]
    rw [hashes]
    exact h
  · have absent : ∀ t ∈ txs, t.hash ≠ tx.hash := fun t ht same => present ⟨t, ht, same⟩
    rw [putTransaction_of_absent absent, List.map_append, List.nodup_append]
    refine ⟨h, List.nodup_cons.mpr ⟨List.not_mem_nil, List.nodup_nil⟩, ?_⟩
    intro a ha b hb same
    obtain ⟨t, ht, rfl⟩ := List.mem_map.mp ha
    exact absent t ht (same.trans (List.mem_singleton.mp hb))

/-- A transaction that is put is the one with its hash, and those of other hashes stay. -/
theorem lastWith?_putTransaction (txs : List TransactionRow) (tx : TransactionRow) (h : String) :
    lastWith? hash (putTransaction txs tx) h =
      if tx.hash = h then some tx else lastWith? hash txs h := by
  by_cases present : ∃ t ∈ txs, t.hash = tx.hash
  · obtain ⟨t, ht, same⟩ := present
    rw [putTransaction_of_present ht same]
    by_cases here : tx.hash = h
    · rw [if_pos here]
      have put : tx ∈ txs.map fun t => if t.hash == tx.hash then tx else t :=
        List.mem_map.mpr ⟨t, ht, by simp [same]⟩
      refine lastWith?_eq_of_unique put here ?_
      intro u hu hk
      obtain ⟨v, _, rfl⟩ := List.mem_map.mp hu
      by_cases hv : v.hash = tx.hash
      · simp [hv]
      · simp only [beq_iff_eq, if_neg hv] at hk
        exact absurd (hk.trans here.symm) hv
    · rw [if_neg here]
      refine lastWith?_map ?_
      intro u _ hk
      by_cases hu : u.hash = tx.hash
      · simp only [hu, beq_self_eq_true, if_true] at hk
        exact absurd (hk.elim id id) here
      · simp [hu]
  · have absent : ∀ t ∈ txs, t.hash ≠ tx.hash := fun t ht same => present ⟨t, ht, same⟩
    rw [putTransaction_of_absent absent, lastWith?_append, lastWith?_singleton]
    by_cases here : tx.hash = h <;> simp [here]

/-! ## The rows of a batch -/

/-- Transactions put one after the other. -/
def distinct (txs : List TransactionRow) : List TransactionRow := txs.foldl putTransaction []

theorem foldl_putTransaction_nodup {txs : List TransactionRow} (more : List TransactionRow)
    (h : (txs.map hash).Nodup) : ((more.foldl putTransaction txs).map hash).Nodup := by
  induction more generalizing txs with
  | nil => exact h
  | cons tx rest ih => exact ih (putTransaction_nodup tx h)

theorem lastWith?_foldl_putTransaction (txs more : List TransactionRow) (h : String) :
    lastWith? hash (more.foldl putTransaction txs) h =
      (lastWith? hash more h).or (lastWith? hash txs h) := by
  induction more generalizing txs with
  | nil => rfl
  | cons tx rest ih =>
    rw [List.foldl_cons, ih, lastWith?_putTransaction, lastWith?_cons]
    cases lastWith? hash rest h with
    | some _ => rfl
    | none => by_cases here : tx.hash = h <;> simp [here]

theorem distinct_nodup (txs : List TransactionRow) : ((distinct txs).map hash).Nodup :=
  foldl_putTransaction_nodup txs List.nodup_nil

theorem lastWith?_distinct (txs : List TransactionRow) (h : String) :
    lastWith? hash (distinct txs) h = lastWith? hash txs h := by
  rw [distinct, lastWith?_foldl_putTransaction, lastWith?_nil, Option.or_none]

/-- The rows that stay are the last ones of their hashes. -/
theorem mem_distinct_iff {txs : List TransactionRow} {tx : TransactionRow} :
    tx ∈ distinct txs ↔ lastWith? hash txs tx.hash = some tx := by
  rw [← lastWith?_distinct]
  exact ⟨lastWith?_of_nodup (distinct_nodup txs), fun found => (lastWith?_some found).1⟩

/-- The rows of the transactions that are classified, in the order of the blocks. -/
def transactionsOf (options : ClassifyOptions) (blocks : List Block) : List TransactionRow :=
  if options.indexTransactions then blocks.flatMap Block.transactionRows else []

theorem transactionsOf_cons (options : ClassifyOptions) (b : Block) (blocks : List Block) :
    transactionsOf options (b :: blocks) =
      transactionsOf options [b] ++ transactionsOf options blocks := by
  rw [transactionsOf, transactionsOf, transactionsOf]
  cases options.indexTransactions <;> simp

end Batch

end ChainIndex
