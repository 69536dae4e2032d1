import ChainIndex.Proofs.Window.Walk

/-!
# Aligned ends

The end of a window is moved back to the greatest boundary, where a boundary is a number right
before a multiple of the alignment.  A window without a boundary should keep its end.

One window without a boundary does not: a window that starts at zero and ends before the first
boundary.  There is no number right before the multiple zero, but a difference that saturates gives
zero for it, and zero lies in that window.  So the window is cut to the block zero
(`alignEnd_aligned_iff`).
-/

namespace ChainIndex.Window

/-- A number stands right before a multiple of the alignment. -/
def IsBoundary (alignment n : UInt64) : Prop := alignment.toNat ∣ n.toNat + 1

/-- Where the end of a window should be: at the greatest boundary up to its last number, or at the
last number where no boundary lies in the window. -/
def IsAligned (first last alignment r : UInt64) : Prop :=
  (IsBoundary alignment r ∧ ∀ x, x ≤ last → IsBoundary alignment x → x ≤ r) ∨
    (∀ x, first ≤ x → x ≤ last → ¬ IsBoundary alignment x) ∧ r = last

/-- The greatest multiple of the alignment up to the number behind a window. -/
def multipleBehind (last alignment : UInt64) : Nat :=
  (last.toNat + 1) / alignment.toNat * alignment.toNat

variable {first last alignment : UInt64}

theorem multipleBehind_le (last alignment : UInt64) :
    multipleBehind last alignment ≤ last.toNat + 1 :=
  Nat.div_mul_le_self _ _

/-- A boundary in front of the end of a window is in front of the greatest multiple. -/
theorem IsBoundary.le_multipleBehind {x : UInt64} (boundary : IsBoundary alignment x)
    (inside : x ≤ last) : x.toNat + 1 ≤ multipleBehind last alignment := by
  obtain ⟨k, multiple⟩ := boundary
  rw [UInt64.le_iff_toNat_le] at inside
  have positive : 0 < alignment.toNat := by
    refine Nat.pos_of_ne_zero fun zero => ?_
    rw [zero, Nat.zero_mul] at multiple
    omega
  have quotient : k ≤ (last.toNat + 1) / alignment.toNat := by
    rw [Nat.le_div_iff_mul_le positive, Nat.mul_comm, ← multiple]
    omega
  calc x.toNat + 1 = k * alignment.toNat := by rw [multiple, Nat.mul_comm]
    _ ≤ multipleBehind last alignment := Nat.mul_le_mul_right _ quotient

/-- A window that ends before the first boundary has no multiple behind it but zero. -/
theorem multipleBehind_eq_zero_iff (wide : 2 ≤ alignment) (below : last < greatest) :
    multipleBehind last alignment = 0 ↔ last + 1 < alignment := by
  have two : 2 ≤ alignment.toNat := UInt64.le_iff_toNat_le.mp wide
  rw [UInt64.lt_iff_toNat_lt, toNat_succ below, multipleBehind, Nat.mul_eq_zero,
    Nat.div_eq_zero_iff]
  omega

/-- The number in front of the greatest multiple; zero where that multiple is zero. -/
theorem toNat_before_multiple (below : last < greatest) :
    (subSaturating (addSaturating last 1 / alignment * alignment) 1).toNat =
      multipleBehind last alignment - 1 := by
  have limit : last.toNat < 0xFFFFFFFFFFFFFFFF := UInt64.lt_iff_toNat_lt.mp below
  have behind : (addSaturating last 1).toNat = last.toNat + 1 := by
    rw [toNat_addSaturating, UInt64.toNat_one]
    omega
  have small := multipleBehind_le last alignment
  rw [toNat_subSaturating, UInt64.toNat_one, UInt64.toNat_mul, UInt64.toNat_div, behind,
    ← multipleBehind, Nat.mod_eq_of_lt (by omega)]

/-- The aligned end is in front of the greatest multiple where that number lies in the window. -/
theorem toNat_alignEnd (first : UInt64) (below : last < greatest) (wide : 2 ≤ alignment) :
    (alignEnd first last alignment).toNat =
      if first.toNat ≤ multipleBehind last alignment - 1 then multipleBehind last alignment - 1
      else last.toNat := by
  have two : 2 ≤ alignment.toNat := UInt64.le_iff_toNat_le.mp wide
  have notOne : ¬ alignment ≤ 1 := by
    rw [UInt64.le_iff_toNat_le, UInt64.toNat_one]
    omega
  rw [alignEnd, if_neg notOne, ← toNat_before_multiple below]
  simp only [UInt64.le_iff_toNat_le]
  exact apply_ite UInt64.toNat _ _ _

/-- Where there is a multiple behind the window other than zero, the end is aligned. -/
theorem alignEnd_of_multiple (below : last < greatest) (wide : 2 ≤ alignment)
    (positive : 0 < multipleBehind last alignment) :
    IsAligned first last alignment (alignEnd first last alignment) := by
  have found := toNat_alignEnd first below wide
  split at found
  case isTrue inside =>
    refine .inl ⟨?_, fun x hx boundary => ?_⟩
    · rw [IsBoundary, found, Nat.sub_add_cancel positive]
      exact Nat.dvd_mul_left _ _
    · have front := boundary.le_multipleBehind hx
      rw [UInt64.le_iff_toNat_le, found]
      omega
  case isFalse outside =>
    refine .inr ⟨fun x hf hx boundary => ?_, UInt64.toNat_inj.mp found⟩
    have front := boundary.le_multipleBehind hx
    rw [UInt64.le_iff_toNat_le] at hf
    omega

/-- A window in front of the first boundary has none. -/
theorem not_isBoundary_of_multiple (none : multipleBehind last alignment = 0) (x : UInt64)
    (inside : x ≤ last) : ¬ IsBoundary alignment x := by
  intro boundary
  have front := boundary.le_multipleBehind inside
  omega

/-- A window in front of the first boundary keeps its end, unless it starts at zero. -/
theorem alignEnd_of_no_multiple (below : last < greatest) (wide : 2 ≤ alignment)
    (none : multipleBehind last alignment = 0) :
    alignEnd first last alignment = if first = 0 then 0 else last := by
  have found := toNat_alignEnd first below wide
  rw [none] at found
  rw [← UInt64.toNat_inj, found]
  by_cases start : first = 0
  · rw [if_pos start, start]
    rfl
  · have apart : first.toNat ≠ 0 := fun zero => start (UInt64.toNat_inj.mp zero)
    rw [if_neg start, if_neg (by omega)]

/-- The end of a window stays in the window.  It is aligned just where the window is not one of
several blocks from zero on that ends before the first boundary. -/
theorem alignEnd_aligned_iff (ordered : first ≤ last) (below : last < greatest)
    (wide : 2 ≤ alignment) :
    first ≤ alignEnd first last alignment ∧ alignEnd first last alignment ≤ last ∧
      (IsAligned first last alignment (alignEnd first last alignment) ↔
        ¬ (first = 0 ∧ 0 < last ∧ last + 1 < alignment)) := by
  obtain ⟨lower, upper⟩ := alignEnd_bounds alignment ordered
  refine ⟨lower, upper, ?_⟩
  rw [← multipleBehind_eq_zero_iff wide below]
  by_cases none : multipleBehind last alignment = 0
  case neg =>
    refine iff_of_true ?_ fun cut => none cut.2.2
    exact alignEnd_of_multiple below wide (Nat.pos_of_ne_zero none)
  case pos =>
    have away := not_isBoundary_of_multiple none
    have kept : IsAligned first last alignment (alignEnd first last alignment) ↔
        alignEnd first last alignment = last := by
      refine ⟨?_, fun same => .inr ⟨fun x _ hx => away x hx, same⟩⟩
      rintro (⟨boundary, -⟩ | ⟨-, same⟩)
      · exact absurd boundary (away _ upper)
      · exact same
    rw [kept, alignEnd_of_no_multiple below wide none]
    by_cases start : first = 0
    · have zero : ¬ 0 < last ↔ 0 = last := by
        rw [UInt64.not_lt, UInt64.le_iff_toNat_le, ← UInt64.toNat_inj, UInt64.toNat_zero]
        omega
      rw [if_pos start, ← zero]
      exact not_congr ⟨fun more => ⟨start, more, none⟩, fun cut => cut.2.1⟩
    · rw [if_neg start]
      exact iff_of_true rfl fun cut => start cut.1

theorem alignEnd_aligned_of_boundary_inside :
    ((95 : UInt64) ≤ 194 ∧ (194 : UInt64) < greatest ∧ (2 : UInt64) ≤ 100) ∧
      95 ≤ alignEnd 95 194 100 ∧ alignEnd 95 194 100 ≤ 194 ∧
      (IsAligned 95 194 100 (alignEnd 95 194 100) ↔
        ¬ ((95 : UInt64) = 0 ∧ (0 : UInt64) < 194 ∧ (194 : UInt64) + 1 < 100)) :=
  ⟨by decide, alignEnd_aligned_iff (by decide) (by decide) (by decide)⟩

/-- The window from 0 to 98 has no boundary for an alignment of 100, and is cut to the block 0. -/
theorem alignEnd_not_aligned_of_zero :
    alignEnd 0 98 100 = 0 ∧ ¬ IsAligned 0 98 100 (alignEnd 0 98 100) := by
  have cut : alignEnd 0 98 100 = 0 := by decide
  refine ⟨cut, ?_⟩
  rw [cut]
  rintro (⟨boundary, -⟩ | ⟨-, same⟩)
  · exact absurd boundary (by rw [IsBoundary]; decide)
  · exact absurd same (by decide)

end ChainIndex.Window
