import ChainIndex.Run.Index

/-!
# Windows of an index run

The window of a run starts at its next block.  It has that block, and it does not go past the
last block to index (`windowEnd_bounds`), whatever the batch size, the alignment and the block
that made the run step back.
-/

namespace ChainIndex

namespace Window

/-! ## Words as numbers -/

theorem toNat_addSaturating (a b : UInt64) :
    (addSaturating a b).toNat = min (a.toNat + b.toNat) 0xFFFFFFFFFFFFFFFF := by
  have ha := a.toNat_lt
  have hb := b.toNat_lt
  rw [addSaturating]
  split
  case isTrue h =>
    rw [UInt64.lt_iff_toNat_lt, UInt64.toNat_add] at h
    show 0xFFFFFFFFFFFFFFFF = _
    omega
  case isFalse h =>
    rw [UInt64.lt_iff_toNat_lt, UInt64.toNat_add] at h
    rw [UInt64.toNat_add]
    omega

theorem toNat_subSaturating (a b : UInt64) : (subSaturating a b).toNat = a.toNat - b.toNat := by
  rw [subSaturating]
  split
  case isTrue h =>
    rw [UInt64.lt_iff_toNat_lt] at h
    show 0 = _
    omega
  case isFalse h => exact UInt64.toNat_sub_of_le a b (UInt64.not_lt.mp h)

theorem subSaturating_le (a b : UInt64) : subSaturating a b ≤ a := by
  rw [UInt64.le_iff_toNat_le, toNat_subSaturating]
  exact Nat.sub_le _ _

theorem le_max_left (a b : UInt64) : a ≤ max a b := by
  simp only [max]
  split
  · assumption
  · exact UInt64.le_refl a

theorem toNat_max (a b : UInt64) : (max a b).toNat = max a.toNat b.toNat := by
  simp only [max, UInt64.le_iff_toNat_le]
  split <;> rfl

theorem toNat_min (a b : UInt64) : (min a b).toNat = min a.toNat b.toNat := by
  simp only [min, UInt64.le_iff_toNat_le]
  split <;> rfl

/-- A step past a block that is not the last word does not wrap. -/
theorem toNat_succ {a b : UInt64} (h : a < b) : (a + 1).toNat = a.toNat + 1 := by
  have hb := b.toNat_lt
  rw [UInt64.lt_iff_toNat_lt] at h
  rw [UInt64.toNat_add]
  show (a.toNat + 1) % 2 ^ 64 = _
  omega

theorem lt_succ {a b : UInt64} (h : a < b) : a < a + 1 := by
  have next := toNat_succ h
  rw [UInt64.lt_iff_toNat_lt]
  omega

theorem succ_le {a b : UInt64} (h : a < b) : a + 1 ≤ b := by
  have next := toNat_succ h
  rw [UInt64.lt_iff_toNat_lt] at h
  rw [UInt64.le_iff_toNat_le]
  omega

/-- The number before one that is not zero does not wrap. -/
theorem toNat_pred {a b : UInt64} (h : a < b) : (b - 1).toNat = b.toNat - 1 := by
  rw [UInt64.lt_iff_toNat_lt] at h
  apply UInt64.toNat_sub_of_le
  rw [UInt64.le_iff_toNat_le, UInt64.toNat_one]
  omega

theorem le_pred {a b : UInt64} (h : a < b) : a ≤ b - 1 ∧ b - 1 < b := by
  have before := toNat_pred h
  rw [UInt64.lt_iff_toNat_lt] at h
  rw [UInt64.le_iff_toNat_le, UInt64.lt_iff_toNat_lt]
  omega

/-! ## Bounds -/

theorem last_bounds {first limit : UInt64} (size : UInt64) (h : first ≤ limit) :
    first ≤ last first size limit ∧ last first size limit ≤ limit := by
  have lower : first ≤ addSaturating first (effectiveSize size - 1) := by
    have hf := first.toNat_lt
    rw [UInt64.le_iff_toNat_le, toNat_addSaturating]
    omega
  exact ⟨Std.le_min_iff.mpr ⟨lower, h⟩, Std.min_le_right⟩

theorem alignEnd_bounds {first last : UInt64} (alignment : UInt64) (h : first ≤ last) :
    first ≤ alignEnd first last alignment ∧ alignEnd first last alignment ≤ last := by
  rw [alignEnd]
  split
  case isTrue => exact ⟨h, UInt64.le_refl _⟩
  case isFalse =>
    dsimp only
    split
    case isTrue aligned =>
      refine ⟨aligned, ?_⟩
      have whole := Nat.div_mul_le_self (addSaturating last 1).toNat alignment.toNat
      have small : (addSaturating last 1 / alignment * alignment).toNat ≤ last.toNat + 1 := by
        rw [UInt64.toNat_mul, UInt64.toNat_div]
        refine Nat.le_trans (Nat.mod_le _ _) (Nat.le_trans whole ?_)
        rw [toNat_addSaturating, UInt64.toNat_one]
        omega
      rw [UInt64.le_iff_toNat_le, toNat_subSaturating, UInt64.toNat_one]
      omega
    case isFalse => exact ⟨h, UInt64.le_refl _⟩

/-- A window has no more blocks than its size says. -/
theorem last_size (first size limit : UInt64) :
    (last first size limit).toNat + 1 ≤ first.toNat + (effectiveSize size).toNat := by
  have positive : 1 ≤ (effectiveSize size).toNat := by
    rw [effectiveSize, toNat_max, UInt64.toNat_one]
    exact Nat.le_max_right _ _
  have before : (effectiveSize size - 1).toNat = (effectiveSize size).toNat - 1 :=
    UInt64.toNat_sub_of_le _ _ (by rwa [UInt64.le_iff_toNat_le, UInt64.toNat_one])
  rw [last, toNat_min, toNat_addSaturating, before]
  omega

/-! ## The numbers of a window -/

theorem mem_numbers {a b n : UInt64} : n ∈ numbers a b ↔ a ≤ n ∧ n ≤ b := by
  have ha := a.toNat_lt
  have hb := b.toNat_lt
  have hn := n.toNat_lt
  simp only [numbers, List.mem_map, List.mem_range, UInt64.le_iff_toNat_le]
  constructor
  · rintro ⟨i, hi, rfl⟩
    rw [UInt64.toNat_add, UInt64.toNat_ofNat']
    omega
  · intro ⟨hle, hge⟩
    refine ⟨n.toNat - a.toNat, by omega, UInt64.toNat_inj.mp ?_⟩
    rw [UInt64.toNat_add, UInt64.toNat_ofNat']
    omega

/-- The numbers of a window stand in order. -/
theorem numbers_sorted (a b : UInt64) : (numbers a b).Pairwise (· < ·) := by
  rw [numbers, List.pairwise_map]
  refine (List.pairwise_lt_range (n := b.toNat + 1 - a.toNat)).imp_of_mem fun {i j} hi hj h => ?_
  have hb := b.toNat_lt
  rw [List.mem_range] at hi hj
  rw [UInt64.lt_iff_toNat_lt, UInt64.toNat_add, UInt64.toNat_add, UInt64.toNat_ofNat',
    UInt64.toNat_ofNat']
  omega

/-- The numbers up to a last one can be counted where that is not the greatest word, or there are
none. -/
theorem canCount_numbers_iff {a b : UInt64} :
    CanCount a (numbers a b).length ↔ b ≠ greatest ∨ b < a := by
  have top : greatest.toNat + 1 = UInt64.size := rfl
  have bound : b.toNat < UInt64.size := b.toNat_lt
  rw [CanCount, numbers, List.length_map, List.length_range, ne_eq, ← UInt64.toNat_inj,
    UInt64.lt_iff_toNat_lt]
  omega

theorem numbers_nodup (a b : UInt64) : (numbers a b).Nodup :=
  (numbers_sorted a b).imp fun h => UInt64.ne_of_lt h

end Window

/-! ## The window of a run -/

theorem IndexRun.windowEnd_bounds (plan : IndexPlan) (r : IndexRun) {last : UInt64}
    (h : r.next ≤ last) : r.next ≤ r.windowEnd plan last ∧ r.windowEnd plan last ≤ last := by
  obtain ⟨hfirst, hlimit⟩ := Window.last_bounds r.order.batchSize h
  obtain ⟨lower, upper⟩ := Window.alignEnd_bounds plan.alignment hfirst
  rw [windowEnd]
  cases r.reorged with
  | none => exact ⟨lower, UInt64.le_trans upper hlimit⟩
  | some block =>
    have reached := UInt64.le_trans lower (Window.le_max_left _ block)
    exact ⟨Std.le_min_iff.mpr ⟨reached, h⟩, Std.min_le_right⟩

/-- The window reaches the block that made the run step back. -/
theorem IndexRun.reorged_le_windowEnd (plan : IndexPlan) {r : IndexRun} {last block : UInt64}
    (pending : r.reorged = some block) (within : block ≤ last) : block ≤ r.windowEnd plan last := by
  rw [UInt64.le_iff_toNat_le] at within ⊢
  simp only [windowEnd, pending, Window.toNat_min, Window.toNat_max]
  omega

/-- Without such a block, the window is no longer than the size of a batch.  With one, it may be
longer, and then it ends right there. -/
theorem IndexRun.reorged_of_long_window (plan : IndexPlan) {r : IndexRun} {last : UInt64}
    (h : r.next ≤ last) (within : ∀ block, r.reorged = some block → block ≤ last)
    (long : (Window.effectiveSize r.order.batchSize).toNat <
      (r.windowEnd plan last).toNat + 1 - r.next.toNat) :
    r.reorged = some (r.windowEnd plan last) := by
  have short := Window.last_size r.next r.order.batchSize last
  have aligned := (Window.alignEnd_bounds plan.alignment
    (Window.last_bounds r.order.batchSize h).1).2
  rw [UInt64.le_iff_toNat_le] at aligned
  cases pending : r.reorged with
  | none =>
    simp only [windowEnd, pending] at long
    omega
  | some block =>
    have within := within block pending
    rw [UInt64.le_iff_toNat_le] at within
    simp only [windowEnd, pending, Window.toNat_min, Window.toNat_max] at long
    rw [Option.some.injEq, ← UInt64.toNat_inj]
    simp only [windowEnd, pending, Window.toNat_min, Window.toNat_max]
    omega

end ChainIndex
