import ChainIndex.Proofs.Batch.Accounts

/-!
# Blocks that are given

Blocks may be written that no run fetched.  Each stands for the result of a fetch of the number
that it states itself, so it counts as failed just where it is not verified as that number
(`goodBlocks_given`).  A write of blocks classifies these results, persists the batch, and reports
what the batch tells (`writeBlocks_eq`), unless their numbers or times are out of range
(`GivenFits`).
-/

namespace ChainIndex

/-- A block is verified as the number that it states. -/
def Block.isVerified (b : Block) : Bool := (b.verify b.numberWord).isOk

theorem Block.isVerified_iff {b : Block} : b.isVerified ↔ b.verify b.numberWord = .ok () := by
  rw [isVerified]
  cases b.verify b.numberWord with
  | ok _ => exact ⟨fun _ => rfl, fun _ => rfl⟩
  | error _ => exact ⟨nofun, nofun⟩

instance lawfulOrderMax : Std.LawfulOrderMax UInt64 := by
  refine .of_max_le_iff (fun a b c => ?_) fun a b => ?_
  · simp only [max]
    split
    case isTrue upper => exact ⟨fun hb => ⟨UInt64.le_trans upper hb, hb⟩, And.right⟩
    case isFalse lower =>
      have lower := UInt64.le_of_lt (UInt64.not_le.mp lower)
      exact ⟨fun ha => ⟨ha, UInt64.le_trans lower ha⟩, And.left⟩
  · simp only [max]
    split
    · exact .inr rfl
    · exact .inl rfl

/-- The order of numbers does not matter for the greatest. -/
theorem max?_of_perm {xs ys : List UInt64} (perm : xs.Perm ys) : xs.max? = ys.max? := by
  cases greatest : xs.max? with
  | none =>
    have none : ys = [] := (List.max?_eq_none_iff.mp greatest ▸ perm).nil_eq.symm
    exact (List.max?_eq_none_iff.mpr none).symm
  | some n =>
    obtain ⟨mem, all⟩ := List.max?_eq_some_iff.mp greatest
    refine (List.max?_eq_some_iff.mpr ⟨perm.mem_iff.mp mem, fun m hm => ?_⟩).symm
    exact all m (perm.mem_iff.mpr hm)

namespace Batch

/-- The results that blocks stand for. -/
def givenResults (blocks : List Block) : List BlockResult := blocks.map givenResult

theorem sift_given (b : Block) :
    (sift (givenResult b)).toOption = if b.isVerified then some b else none := by
  split
  case isTrue verified =>
    have good : sift (givenResult b) = .ok b :=
      sift_ok_iff.mpr ⟨rfl, rfl, Block.isVerified_iff.mp verified⟩
    rw [good]
    rfl
  case isFalse unverified =>
    cases sifted : sift (givenResult b) with
    | error _ => rfl
    | ok c =>
      obtain ⟨same, _, verified⟩ := sift_ok_iff.mp sifted
      obtain rfl := Option.some.inj same
      exact absurd (Block.isVerified_iff.mpr verified) unverified

/-- The good results among those of given blocks are the verified blocks. -/
theorem goodBlocks_given (blocks : List Block) :
    goodBlocks (givenResults blocks) = blocks.filter Block.isVerified := by
  rw [goodBlocks, givenResults, List.filterMap_map, ← List.filterMap_eq_filter]
  refine List.filterMap_congr fun b _ => ?_
  rw [Function.comp_apply, sift_given, Option.guard]

variable {σ : Type} [Backend σ] [LawfulBackend σ]

open LawfulBackend

/-- The batch that given blocks call for. -/
def givenBatch (options : ClassifyOptions) (blocks : List Block) (s : σ) : Batch :=
  prepared options (givenResults blocks) s

/-- The report on given blocks, of whose issues some were new to the log. -/
def givenReport (options : ClassifyOptions) (blocks : List Block) (s : σ) (inserted : Nat) :
    BatchReport :=
  (givenBatch options blocks s).tally { windows := 1, nextBlock := numberBehind blocks } inserted

/-- The numbers of given blocks and their times are in range. -/
def GivenFits (v : View) (blocks : List Block) : Prop :=
  NumbersFit blocks ∧ TimesFit v (givenResults blocks)

instance (v : View) (blocks : List Block) : Decidable (GivenFits v blocks) :=
  inferInstanceAs (Decidable (_ ∧ _))

theorem writeBlocks_overflow {options : ClassifyOptions} {blocks : List Block} {s : σ}
    (unfit : ¬ GivenFits (view s) blocks) :
    (writeBlocks options blocks).on s = (.error .overflow, s) := by
  rw [writeBlocks]
  by_cases numbers : NumbersFit blocks
  · rw [Effect.on_inRange numbers]
    exact Effect.on_bind_error (prepare_overflow fun times => unfit ⟨numbers, times⟩)
  · exact Effect.on_outOfRange numbers

/-- A write of blocks persists their batch, and its report tells what the batch does. -/
theorem writeBlocks_eq (options : ClassifyOptions) {blocks : List Block} {s : σ}
    (fits : GivenFits (view s) blocks) :
    (writeBlocks options blocks).on s =
      match (givenBatch options blocks s).persist.on s with
      | (.ok inserted, s') => (.ok (givenReport options blocks s inserted), s')
      | (.error fault, s') => (.error (.fault fault), s') := by
  have prepared : (prepare options (givenResults blocks)).on s = _ := prepare_ok fits.2
  rw [writeBlocks, Effect.on_inRange fits.1]
  rcases persisted : (givenBatch options blocks s).persist.on s with ⟨fault | inserted, left⟩
  · exact (Effect.on_bind_ok prepared).trans (Effect.on_bind_error (Effect.on_checked_error persisted))
  · exact (Effect.on_bind_ok prepared).trans (Effect.on_bind_ok (Effect.on_checked_ok persisted))

theorem writeBlocks_ok {options : ClassifyOptions} {blocks : List Block} {s s' : σ}
    {report : BatchReport} (written : (writeBlocks options blocks).on s = (.ok report, s')) :
    GivenFits (view s) blocks ∧ view s' = (givenBatch options blocks s).stage (view s) 3 ∧
      report = givenReport options blocks s
        (appendIssues (view s).log (givenBatch options blocks s).issues).1 := by
  by_cases fits : GivenFits (view s) blocks
  case neg => cases (writeBlocks_overflow fits).symm.trans written
  rw [writeBlocks_eq options fits] at written
  rcases persisted : (givenBatch options blocks s).persist.on s with ⟨fault | inserted, left⟩
  · rw [persisted] at written
    cases written
  · rw [persisted] at written
    cases written
    obtain ⟨rfl, content, _⟩ := persist_ok persisted
    exact ⟨fits, content, rfl⟩

/-- In a sturdy store blocks are written where their numbers and times are in range. -/
theorem writeBlocks_of_sturdy (options : ClassifyOptions) {blocks : List Block} {s : σ}
    (hs : Sturdy s) (fits : GivenFits (view s) blocks) :
    ∃ report s', (writeBlocks options blocks).on s = (.ok report, s') ∧ Sturdy s' := by
  obtain ⟨s', persisted, _, sturdy⟩ := (givenBatch options blocks s).persist_of_sturdy hs
  rw [writeBlocks_eq options fits, persisted]
  exact ⟨_, s', rfl, sturdy⟩

end Batch

end ChainIndex
