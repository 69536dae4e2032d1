import ChainIndex.Proofs.Batch.Given
import ChainIndex.Proofs.Store.Interchange

/-!
# The greatest checkpoint

A store answers the greatest of the numbers that were saved as a checkpoint, in the order that it
compares them in.  `Standing` says so of any order, and `RaisesIn` which order a store has: the
store in memory compares words, the store of signed columns compares signed words.

The two orders agree on numbers below `2 ^ 63` and on numbers from there on, but each number of the
second half is less than all of the first as a signed word.  So a checkpoint that is saved in both
halves falls back below `2 ^ 63` in signed columns (`checkpoint_is_greatest_iff`).
-/

namespace ChainIndex

open LawfulBackend

/-! ## Numbers that were saved -/

/-- The number that a write saves as the checkpoint of a pipeline. -/
def StoreWrite.saves? (kind : CheckpointKind) : StoreWrite → Option UInt64
  | checkpoint k number => if k = kind then some number else none
  | _ => none

/-- The numbers that writes save as the checkpoint of a pipeline, in order. -/
def StoreWrite.saved (kind : CheckpointKind) (writes : List StoreWrite) : List UInt64 :=
  writes.filterMap (saves? kind)

/-- A checkpoint is one of some numbers that none of them is above, and there is none where there
are no numbers. -/
def Standing (le : UInt64 → UInt64 → Prop) (numbers : List UInt64) : Option UInt64 → Prop
  | none => numbers = []
  | some c => c ∈ numbers ∧ ∀ n ∈ numbers, le n c

/-- A store keeps the greater of a checkpoint and a number that is saved, in an order of words. -/
structure RaisesIn (σ : Type) [Backend σ] [LawfulBackend σ] (le : UInt64 → UInt64 → Prop) : Prop
    where
  refl (n : UInt64) : le n n
  trans {a b c : UInt64} : le a b → le b c → le a c
  saved (s : σ) (kind : CheckpointKind) (n : UInt64) : le n (raised s kind n)
  stood {s : σ} {kind : CheckpointKind} {n c : UInt64} :
    (view s).checkpoint? kind = some c → le c (raised s kind n)

section Runs

variable {σ : Type} [Backend σ] [LawfulBackend σ] {le : UInt64 → UInt64 → Prop} {s : σ}
  {kind : CheckpointKind} {numbers : List UInt64}

/-- The greatest number stays the one that stands when another one is saved. -/
theorem Standing.raise (order : RaisesIn σ le)
    (stands : Standing le numbers ((view s).checkpoint? kind)) (n : UInt64) :
    Standing le (numbers ++ [n]) (some (raised s kind n)) := by
  refine ⟨?_, fun m hm => ?_⟩
  · rcases raised_eq s kind n with new | old
    · rw [new]
      exact List.mem_append_right _ (List.mem_singleton_self n)
    · rw [old] at stands
      exact List.mem_append_left _ stands.1
  · rcases List.mem_append.mp hm with before | here
    · cases old : (view s).checkpoint? kind with
      | none =>
        rw [old] at stands
        rw [show numbers = [] from stands] at before
        cases before
      | some c =>
        rw [old] at stands
        exact order.trans (stands.2 m before) (order.stood old)
    · obtain rfl := List.mem_singleton.mp here
      exact order.saved s kind m

/-- A write to a sturdy store raises the checkpoint that it saves, and no other one. -/
theorem StoreWrite.run_on (w : StoreWrite) (sturdy : Sturdy s) :
    ∃ added s', w.run.on s = (.ok added, s') ∧ Sturdy s' ∧ ∀ kind, (view s').checkpoint? kind =
      ((w.saves? kind).map (raised s kind)).or ((view s).checkpoint? kind) := by
  cases w with
  | blocks new changed =>
    obtain ⟨s', done, left, sturdy'⟩ := (saveBlocks_on s new changed).of_sturdy sturdy
    exact ⟨0, s', Effect.on_bind_ok done, sturdy', fun _ => by rw [left]; rfl⟩
  | transactions new changed =>
    obtain ⟨s', done, left, sturdy'⟩ := (saveTransactions_on s new changed).of_sturdy sturdy
    exact ⟨0, s', Effect.on_bind_ok done, sturdy', fun _ => by rw [left]; rfl⟩
  | checkpoint k number =>
    obtain ⟨s', done, left, sturdy'⟩ := (saveCheckpoint_on s k number).of_sturdy sturdy
    refine ⟨0, s', Effect.on_bind_ok done, sturdy', fun kind => ?_⟩
    rw [left, saves?]
    by_cases same : k = kind
    · subst same
      rw [if_pos rfl]
      exact if_pos rfl
    · rw [if_neg same]
      exact if_neg (Ne.symm same)
  | issues found =>
    obtain ⟨s', done, left, sturdy'⟩ := (saveIssues_on s found).of_sturdy sturdy
    exact ⟨_, s', done, sturdy', fun _ => by rw [left]; rfl⟩

/-- After any writes to a sturdy store, the greatest of the numbers saved is the one that stands. -/
theorem StoreWrite.run_standing (order : RaisesIn σ le) (writes : List StoreWrite)
    (sturdy : Sturdy s) (stands : Standing le numbers ((view s).checkpoint? kind)) :
    ∃ added s', (writes.mapM run).on s = (.ok added, s') ∧
      Standing le (numbers ++ saved kind writes) ((view s').checkpoint? kind) := by
  induction writes generalizing s numbers with
  | nil => exact ⟨[], s, rfl, by rwa [saved, List.filterMap_nil, List.append_nil]⟩
  | cons w writes ih =>
    obtain ⟨count, s₁, first, sturdy₁, left⟩ := w.run_on sturdy
    have step : Standing le (numbers ++ (w.saves? kind).toList) ((view s₁).checkpoint? kind) := by
      rw [left kind]
      cases w.saves? kind with
      | none => rwa [Option.toList_none, List.append_nil]
      | some n => exact stands.raise order n
    obtain ⟨counts, s₂, rest, stands₂⟩ := ih sturdy₁ step
    refine ⟨count :: counts, s₂, ?_, ?_⟩
    · rw [List.mapM_cons, Effect.on_bind_ok first, Effect.on_bind_ok rest]
      rfl
    · rw [saved, List.filterMap_cons]
      cases found : w.saves? kind with
      | none => rwa [found, Option.toList_none, List.append_nil] at stands₂
      | some n => rwa [found, Option.toList_some, List.append_assoc] at stands₂

end Runs

/-! ## The orders of the stores -/

/-- The order of signed words. -/
def signedLe (a b : UInt64) : Prop := a.toInt64 ≤ b.toInt64

theorem MemoryStore.raisesIn : RaisesIn MemoryStore (· ≤ ·) where
  refl := UInt64.le_refl
  trans := UInt64.le_trans
  saved m kind n := by
    show n ≤ m.raised kind n
    rw [raised]
    cases m.checkpoint kind with
    | none => exact UInt64.le_refl n
    | some old => exact Std.right_le_max
  stood {m kind n c} stands := by
    have old : m.checkpoint kind = some c := stands
    show c ≤ m.raised kind n
    rw [raised, old]
    exact Std.left_le_max

theorem SignedStore.le_greater (a b : Int64) : a ≤ greater a b ∧ b ≤ greater a b := by
  rw [greater]
  split
  case isTrue below => exact ⟨Int64.le_of_lt below, Int64.le_refl b⟩
  case isFalse above => exact ⟨Int64.le_refl a, Int64.not_lt.mp above⟩

theorem SignedStore.raisesIn : RaisesIn SignedStore signedLe where
  refl n := Int64.le_refl n.toInt64
  trans := Int64.le_trans
  saved m kind n := by
    show n.toInt64 ≤ (m.raised kind n).toInt64
    rw [raised]
    cases m.checkpoint kind with
    | none => exact Int64.le_refl n.toInt64
    | some old => exact (le_greater old n.toInt64).2
  stood {m kind n c} stands := by
    obtain ⟨old, found, rfl⟩ := Option.map_eq_some_iff.mp stands
    show old ≤ (m.raised kind n).toInt64
    rw [raised, found]
    exact (le_greater old n.toInt64).1

/-! ## Both orders -/

/-- In the order of words, the checkpoint that stands is the maximum. -/
theorem Standing.eq_max? {numbers : List UInt64} {c : Option UInt64}
    (stands : Standing (· ≤ ·) numbers c) : c = numbers.max? := by
  cases c with
  | none => exact (List.max?_eq_none_iff.mpr stands).symm
  | some c => exact (List.max?_eq_some_iff.mpr stands).symm

/-- The signed value of a word: from `2 ^ 63` on it is negative. -/
theorem toInt_toInt64 (n : UInt64) :
    n.toInt64.toInt = if Small n then (n.toNat : Int) else n.toNat - 2 ^ 64 := by
  have half : Small n ↔ 2 * n.toNat < 2 ^ 64 := by
    rw [Small, UInt64.lt_iff_toNat_lt]
    show n.toNat < 9223372036854775808 ↔ _
    omega
  simp only [half]
  exact BitVec.toInt_eq_toNat_cond n.toBitVec

/-- Among numbers of one half the two orders agree, and across the halves they are opposed. -/
theorem signedLe_iff {a b : UInt64} :
    signedLe a b ↔ if Small a ↔ Small b then a ≤ b else b ≤ a := by
  have smaller {n : UInt64} : Small n ↔ n.toNat < 9223372036854775808 := UInt64.lt_iff_toNat_lt
  have ha := a.toNat_lt
  have hb := b.toNat_lt
  rw [signedLe, Int64.le_iff_toInt_le, toInt_toInt64, toInt_toInt64]
  simp only [UInt64.le_iff_toNat_le, smaller]
  split <;> split <;> split <;> omega

/-- In the order of signed words, the checkpoint that stands is the maximum just where all numbers
are of one half. -/
theorem Standing.eq_max?_iff {numbers : List UInt64} {c : Option UInt64}
    (stands : Standing signedLe numbers c) :
    c = numbers.max? ↔ ∀ a ∈ numbers, ∀ b ∈ numbers, (Small a ↔ Small b) := by
  cases c with
  | none =>
    obtain rfl : numbers = [] := stands
    exact iff_of_true rfl nofun
  | some c =>
    obtain ⟨member, greatest⟩ := stands
    rw [eq_comm, List.max?_eq_some_iff, and_iff_right member]
    constructor
    · intro above a ha b hb
      have half : ∀ n ∈ numbers, (Small n ↔ Small c) := fun n hn => by
        by_contra apart
        -- across the halves the orders are opposed, so the two numbers are the same
        have below := signedLe_iff.mp (greatest n hn)
        rw [if_neg apart] at below
        exact apart (UInt64.le_antisymm (above n hn) below ▸ Iff.rfl)
      exact (half a ha).trans (half b hb).symm
    · intro half n hn
      have below := signedLe_iff.mp (greatest n hn)
      rwa [if_pos (half n hn c member)] at below

/-- After any writes to an empty store the checkpoint of a pipeline can be read.  In memory it is
the maximum of the numbers that were saved for it, none where there are none.  In signed columns it
is the greatest of them as signed words, which is the maximum just where all of them are below
`2 ^ 63` or none is. -/
theorem checkpoint_is_greatest_iff (kind : CheckpointKind) (writes : List StoreWrite) :
    (∃ added m, (writes.mapM StoreWrite.run).on (default : MemoryStore) = (.ok added, m) ∧
      (Backend.getCheckpoint kind).on m = (.ok (StoreWrite.saved kind writes).max?, m)) ∧
    ∃ added s c, (writes.mapM StoreWrite.run).on (default : SignedStore) = (.ok added, s) ∧
      (Backend.getCheckpoint kind).on s = (.ok c, s) ∧
      Standing signedLe (StoreWrite.saved kind writes) c ∧
      (c = (StoreWrite.saved kind writes).max? ↔
        ∀ a ∈ StoreWrite.saved kind writes, ∀ b ∈ StoreWrite.saved kind writes,
          (Small a ↔ Small b)) := by
  constructor
  · have start : Standing (· ≤ ·) [] ((view (default : MemoryStore)).checkpoint? kind) := by
      cases kind <;> rfl
    obtain ⟨added, m, done, stands⟩ := StoreWrite.run_standing MemoryStore.raisesIn writes rfl start
    exact ⟨added, m, done, stands.eq_max? ▸ getCheckpoint_on m kind⟩
  · have start : Standing signedLe [] ((view (default : SignedStore)).checkpoint? kind) := by
      cases kind <;> rfl
    obtain ⟨added, s, done, stands⟩ :=
      StoreWrite.run_standing SignedStore.raisesIn writes trivial start
    exact ⟨added, s, _, done, getCheckpoint_on s kind, stands, stands.eq_max?_iff⟩

/-- In signed columns the checkpoint `2 ^ 63` falls back to 5 when 5 is saved behind it. -/
theorem checkpoint_falls_of_negative : ∃ s,
    ([.checkpoint .index 0x8000000000000000, .checkpoint .index 5].mapM StoreWrite.run).on
      (default : SignedStore) = (.ok [0, 0], s) ∧
    (Backend.getCheckpoint .index).on s = (.ok (some 5), s) ∧
    (StoreWrite.saved .index [.checkpoint .index 0x8000000000000000, .checkpoint .index 5]).max? =
      some 0x8000000000000000 :=
  ⟨_, rfl, rfl, rfl⟩

end ChainIndex
