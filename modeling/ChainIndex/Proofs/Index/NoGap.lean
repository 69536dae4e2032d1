import ChainIndex.Proofs.Batch.Given
import ChainIndex.Proofs.Index.Steps

/-!
# No gap below the checkpoint

Index runs resume from the checkpoint, so a block below it that is not stored would never be
fetched.  There is none, in any state that a store can reach: runs may be answered anything and
may be given up at any point, any write may fail, and blocks may be written from elsewhere at
any time.

The invariant is `NoGap`.  Rows of blocks are never deleted, so it is enough to look at where
the checkpoint and the next block of a run come from: both are the first failed block of a
window, or the block behind a window without failed blocks.
-/

namespace ChainIndex

variable {σ : Type} [Backend σ] [LawfulBackend σ]

open LawfulBackend

/-! ## Rows and their blocks -/

/-- A row was made from a block that was delivered and verified as this number. -/
def BlockRow.Built (delivered : Block → Prop) (number : UInt64) (row : BlockRow) : Prop :=
  ∃ b options duration, delivered b ∧ b.verify number = .ok () ∧
    row = { Batch.rowOf options b with mintDuration := duration }

/-- All numbers from `first` up to a bound are stored. -/
def View.StoredBelow (v : View) (first bound : UInt64) : Prop :=
  ∀ n, first ≤ n → n < bound → (v.block? n).isSome

namespace Batch

/-- The blocks of results were delivered. -/
def Delivered (delivered : Block → Prop) (results : List BlockResult) : Prop :=
  ∀ r ∈ results, ∀ b, r.block = some b → delivered b

section Stage

variable {v : View} {holder? : String → Option UInt64} {options : ClassifyOptions}
  {results : List BlockResult}

theorem block?_stage_cases (b : Batch) (v : View) (k : Nat) (n : UInt64) :
    (b.stage v k).block? n = v.block? n ∨
      (b.stage v k).block? n =
        (lastWith? BlockRow.number (b.newBlocks ++ b.changedBlocks) n).or (v.block? n) := by
  rw [block?_stage]
  split
  · exact .inl rfl
  · exact .inr rfl

/-- No write of a batch deletes a row. -/
theorem isSome_block?_stage (b : Batch) {v : View} (k : Nat) {n : UInt64}
    (h : (v.block? n).isSome) : ((b.stage v k).block? n).isSome := by
  rcases block?_stage_cases b v k n with same | put
  · rw [same]
    exact h
  · rw [put, Option.isSome_or, h, Bool.or_true]

/-- A row after a stage was there before, or it is that of a good block of the batch. -/
theorem row_of_stage {k : Nat} {n : UInt64} {row : BlockRow}
    (h : ((classified v holder? options results).stage v k).block? n = some row) :
    v.block? n = some row ∨ ∃ b ∈ goodBlocks results, b.numberWord = n ∧
      row = (contextOf v holder? options results).complete (rowOf options b) := by
  rcases block?_stage_cases (classified v holder? options results) v k n with same | put
  · exact .inl (same ▸ h)
  · rw [put, Option.or_eq_some_iff] at h
    rcases h with found | ⟨_, stands⟩
    · obtain ⟨hrow, hnumber⟩ := lastWith?_some found
      have completed : row ∈ completedRows (contextOf v holder? options results) options
          (goodBlocks results) := mem_of_mem_parts hrow
      obtain ⟨b, hb, rfl⟩ := List.mem_map.mp completed
      rw [Context.complete_number, rowOf_number] at hnumber
      exact .inr ⟨b, hb, hnumber, rfl⟩
    · exact .inl stands

/-- A row that a batch stores was made from a block of the batch. -/
theorem built_of_stage {delivered : Block → Prop} (hdelivered : Delivered delivered results)
    {k : Nat} {n : UInt64} {row : BlockRow}
    (h : ((classified v holder? options results).stage v k).block? n = some row) :
    v.block? n = some row ∨ row.Built delivered n := by
  rcases row_of_stage h with stands | ⟨b, hb, number, rfl⟩
  · exact .inl stands
  · obtain ⟨r, hr, good⟩ := mem_goodBlocks.mp hb
    obtain ⟨hblock, _, verified⟩ := sift_ok_iff.mp good
    rw [Block.numberWord_of_verify verified] at number
    exact .inr ⟨b, options, _, hdelivered r hr b hblock, number ▸ verified, rfl⟩

/-- A good result of a window is stored after the last stage. -/
theorem isSome_block?_of_good (hd : (results.map BlockResult.number).Nodup) {r : BlockResult}
    {b : Block} (hr : r ∈ results) (good : sift r = .ok b) :
    (((classified v holder? options results).stage v 3).block? r.number).isSome := by
  let c := contextOf v holder? options results
  have completed : c.complete (rowOf options b) ∈ completedRows c options (goodBlocks results) :=
    List.mem_map_of_mem (mem_goodBlocks.mpr ⟨r, hr, good⟩)
  have number : (c.complete (rowOf options b)).number = r.number := by
    rw [Context.complete_number, rowOf_number, Block.numberWord_of_verify (sift_ok_iff.mp good).2.2]
  rw [block?_stage_last hd, Option.isSome_or, lastWith?_isSome completed number, Bool.true_or]

end Stage

end Batch

/-! ## Reachable states -/

/-- The next block of a run, as long as it is not over. -/
def IndexPhase.next? : IndexPhase → Option UInt64
  | .askHead run => some run.next
  | .askWindow run _ => some run.next
  | .ended _ => none
  | .broken => none

theorem IndexPhase.next?_ofResult_error (halt : Halt) : (ofResult (.error halt)).next? = none := by
  cases halt <;> rfl

/-- Any answers, as long as the blocks in them count as delivered. -/
def Answers.delivering (delivered : Block → Prop) : Answers where
  head _ := True
  fetch r := ∀ b, r.block = some b → delivered b

/-- What an empty store becomes, and the run at work on it, where all runs resume from the
checkpoint and are ordered to start at `first` without one. -/
inductive Reachable (delivered : Block → Prop) (first : UInt64) : IndexPhase × σ → Prop
  /-- The store is empty, and no run is at work. -/
  | fresh {s : σ} (result : Except CrawlFault BatchReport) (empty : view s = .empty) :
      Reachable delivered first (.ended result, s)
  /-- A run begins.  The one before it need not be over. -/
  | begin {phase : IndexPhase} {s : σ} (order : IndexOrder) (resumes : order.useCheckpoint = true)
      (start : order.first = first) (before : Reachable delivered first (phase, s)) :
      Reachable delivered first (IndexPhase.start order s)
  /-- A run goes on with any answer, under any plan. -/
  | index {before after : IndexPhase × σ} (plan : IndexPlan)
      (reached : Reachable delivered first before)
      (step : IndexStep plan (.delivering delivered) before after) :
      Reachable delivered first after
  /-- Blocks from elsewhere are written. -/
  | write {phase : IndexPhase} {s : σ} (options : ClassifyOptions) (blocks : List Block)
      (given : ∀ b ∈ blocks, delivered b) (before : Reachable delivered first (phase, s)) :
      Reachable delivered first (phase, ((Batch.writeBlocks options blocks).on s).2)
  /-- Anything else happens that leaves rows of blocks and the checkpoint of the index alone.
  Writes may begin or cease to fail. -/
  | other {phase : IndexPhase} {s s' : σ} (rows : (view s').block? = (view s).block?)
      (checkpoint : (view s').checkpoint? .index = (view s).checkpoint? .index)
      (before : Reachable delivered first (phase, s)) : Reachable delivered first (phase, s')

/-- A run may take any number of steps. -/
theorem Reachable.steps {delivered : Block → Prop} {first : UInt64} {plan : IndexPlan}
    {before after : IndexPhase × σ} (reached : Reachable delivered first before)
    (steps : IndexSteps plan (.delivering delivered) before after) :
    Reachable delivered first after := by
  induction steps with
  | refl => exact reached
  | tail _ step ih => exact ih.index plan step

/-! ## The invariant -/

/-- Every row was made from its block, and nothing is missing below the checkpoint and below the
next block of the run. -/
structure NoGap (delivered : Block → Prop) (first : UInt64) (phase : IndexPhase) (v : View) :
    Prop where
  built : ∀ n row, v.block? n = some row → row.Built delivered n
  checkpoint : ∀ c, v.checkpoint? .index = some c → v.StoredBelow first c
  next : ∀ n, phase.next? = some n → v.StoredBelow first n

namespace NoGap

variable {delivered : Block → Prop} {first : UInt64} {phase phase' : IndexPhase} {v v' : View}

/-- Rows that are put keep the invariant, as long as they were made from their blocks. -/
theorem grow (h : NoGap delivered first phase v)
    (built : ∀ n row, v'.block? n = some row → row.Built delivered n)
    (kept : ∀ n, (v.block? n).isSome → (v'.block? n).isSome)
    (checkpoint : v'.checkpoint? .index = v.checkpoint? .index) :
    NoGap delivered first phase v' where
  built := built
  checkpoint c hc n hfirst below := kept n (h.checkpoint c (checkpoint ▸ hc) n hfirst below)
  next c hc n hfirst below := kept n (h.next c hc n hfirst below)

/-- Nothing but rows of blocks and the checkpoint matters. -/
theorem congr (h : NoGap delivered first phase v) (rows : v'.block? = v.block?)
    (checkpoint : v'.checkpoint? .index = v.checkpoint? .index) : NoGap delivered first phase v' :=
  h.grow (fun n row found => h.built n row (rows ▸ found)) (fun _ found => rows ▸ found) checkpoint

theorem stage (h : NoGap delivered first phase v) {holder? : String → Option UInt64}
    {options : ClassifyOptions} {results : List BlockResult}
    (hdelivered : Batch.Delivered delivered results) (k : Nat) :
    NoGap delivered first phase ((Batch.classified v holder? options results).stage v k) := by
  refine h.grow ?_ (fun n => Batch.isSome_block?_stage _ k) ?_
  · intro n row found
    exact (Batch.built_of_stage hdelivered found).elim (h.built n row) id
  · rw [Batch.checkpoint?_stage]

/-- A run that is over, or broke off, asks for nothing. -/
theorem stopped (h : NoGap delivered first phase v) (stopped : phase'.next? = none) :
    NoGap delivered first phase' v where
  built := h.built
  checkpoint := h.checkpoint
  next _ hn := nomatch stopped.symm.trans hn

/-- A run may go on further down. -/
theorem lower (h : NoGap delivered first phase v) {n : UInt64} (hn : phase.next? = some n)
    (back : ∀ m, phase'.next? = some m → m ≤ n) : NoGap delivered first phase' v where
  built := h.built
  checkpoint := h.checkpoint
  next m hm k hfirst below :=
    h.next n hn k hfirst (UInt64.lt_of_lt_of_le below (back m hm))

end NoGap

variable {delivered : Block → Prop} {first : UInt64}

/-- Where a window is stored, nothing is missing below the block where the run goes on. -/
theorem storedBelow_stage {v : View} {holder? : String → Option UInt64} {options : ClassifyOptions}
    {results : List BlockResult} {next last : UInt64} (before : v.StoredBelow first next)
    (asked : results.map BlockResult.number = Window.numbers next last) :
    ((Batch.classified v holder? options results).stage v 3).StoredBelow first
      (Batch.nextAfter results last) := by
  intro n hfirst below
  by_cases early : n < next
  · exact Batch.isSome_block?_stage _ 3 (before n hfirst early)
  · obtain ⟨r, hr, rfl, b, good⟩ := Batch.good_below_next asked (UInt64.not_lt.mp early) below
    exact Batch.isSome_block?_of_good (asked ▸ Window.numbers_nodup next last) hr good

/-- A window keeps the invariant, whatever it does. -/
theorem NoGap.absorbed {plan : IndexPlan} {run : IndexRun} {last : UInt64}
    {results : List BlockResult} {s s' : σ} {result : Except Halt IndexRun}
    (h : NoGap delivered first (.askWindow run last) (view s))
    (asked : results.map BlockResult.number = Window.numbers run.next last)
    (hdelivered : Batch.Delivered delivered results)
    (done : run.Absorbed plan last results s result s') :
    NoGap delivered first (.ofResult result) (view s') := by
  cases done with
  | @stepsBack r' _ issue _ back left =>
    rw [left]
    have lowered : NoGap delivered first (.askHead r') (view s) := by
      refine h.lower rfl ?_
      intro m hm
      cases hm
      exact back
    exact lowered.congr rfl rfl
  | @stores r' stored s' _ next rows left =>
    have staged : NoGap delivered first (.askWindow run last) (view stored) :=
      rows ▸ h.stage hdelivered 3
    have below : (view stored).StoredBelow first r'.next := by
      rw [rows, next]
      exact storedBelow_stage (h.next run.next rfl) asked
    rw [left]
    refine ⟨staged.built, ?_, ?_⟩
    · -- the checkpoint is the next block now, or the one that stood there before
      intro c hc
      cases hc
      rcases raised_eq stored .index r'.next with raised | stands
      · rw [raised]
        exact below
      · exact staged.checkpoint _ stands
    · intro n hn
      cases hn
      exact below
  | givesUp issues left =>
    rw [left]
    exact (h.stopped (IndexPhase.next?_ofResult_error _)).congr rfl rfl
  | breaksOff k left =>
    rw [left]
    exact (h.stopped (IndexPhase.next?_ofResult_error _)).stage hdelivered k

/-- Blocks from elsewhere go through some of the stages of their batch, or none where the write
breaks off. -/
theorem writeBlocks_on (options : ClassifyOptions) (blocks : List Block) (s : σ) :
    ∃ k, view ((Batch.writeBlocks options blocks).on s).2 =
      (Batch.prepared options (blocks.map Batch.givenResult) s).stage (view s) k := by
  by_cases fits : Batch.GivenFits (view s) blocks
  case neg => exact ⟨0, by rw [Batch.writeBlocks_overflow fits]; rfl⟩
  rw [Batch.writeBlocks_eq options fits]
  rcases Batch.persist_on (Batch.givenBatch options blocks s) s with
    ⟨s', persisted, rows, _⟩ | ⟨_, k, _, s', reason, fails, left⟩
  · rw [persisted]
    exact ⟨3, rows⟩
  · rw [fails]
    exact ⟨k, left⟩

theorem NoGap.step {plan : IndexPlan} {before after : IndexPhase × σ}
    (h : NoGap delivered first before.1 (view before.2))
    (step : IndexStep plan (.delivering delivered) before after) :
    NoGap delivered first after.1 (view after.2) := by
  cases step using IndexStep.by_results with
  | head run s answer _ =>
    simp only [IndexPhase.onHead]
    split
    case h_1 => exact h.stopped rfl
    case h_2 =>
      split
      case isTrue => exact h.stopped rfl
      case isFalse => exact h.lower rfl fun m hm => Option.some.inj hm ▸ UInt64.le_refl _
  | uncountable => exact h.stopped rfl
  | window run last s answer allowed =>
    cases answer with
    | error fault => exact h.stopped rfl
    | ok results =>
      obtain ⟨result, s', stepped, done⟩ := IndexPhase.onWindow_ok plan run last results s
      rw [stepped]
      exact h.absorbed allowed.1 allowed.2 done.absorbed

/-- Every reachable state has the invariant. -/
theorem Reachable.noGap {state : IndexPhase × σ} (h : Reachable delivered first state) :
    NoGap delivered first state.1 (view state.2) := by
  induction h with
  | fresh result empty =>
    rw [empty]
    exact ⟨fun _ _ found => (nomatch found), fun _ hc => (nomatch hc), fun _ hn => nomatch hn⟩
  | @begin phase s order resumes start _ ih =>
    rw [IndexPhase.start_eq]
    refine ⟨ih.built, ih.checkpoint, ?_⟩
    intro n hn
    cases hn
    rw [IndexPhase.firstBlock, if_pos resumes]
    cases hc : (view s).checkpoint? .index with
    | some c => exact ih.checkpoint c hc
    | none =>
      rw [Option.getD_none, start]
      exact fun n hfirst below => absurd hfirst (UInt64.not_le.mpr below)
  | index plan _ step ih => exact ih.step step
  | @write phase s options blocks given _ ih =>
    obtain ⟨k, left⟩ := writeBlocks_on options blocks s
    rw [left]
    refine ih.stage ?_ k
    intro r hr b hb
    obtain ⟨block, hblock, rfl⟩ := List.mem_map.mp hr
    cases hb
    exact given _ hblock
  | other rows checkpoint _ ih => exact ih.congr rows checkpoint

/-- Below the checkpoint of the index every block from `first` on is stored, and its row was made
from a block that was delivered and verified as this number. -/
theorem no_gap_below_checkpoint {state : IndexPhase × σ} {c n : UInt64}
    (h : Reachable delivered first state) (hc : (view state.2).checkpoint? .index = some c)
    (hfirst : first ≤ n) (below : n < c) :
    ∃ row, (view state.2).block? n = some row ∧ row.Built delivered n := by
  obtain ⟨row, found⟩ := Option.isSome_iff_exists.mp (h.noGap.checkpoint c hc n hfirst below)
  exact ⟨row, found, h.noGap.built n row found⟩

/-- A block is written, and a run replaces it and stores what is around it. -/
theorem no_gap_below_checkpoint_of_replaced_block :
    ∃ state : IndexPhase × MemoryStore,
      Reachable (· ∈ Overtaken.stale :: [1, 2, 3].map Overtaken.chain) 1 state ∧
      (view state.2).checkpoint? .index = some 4 ∧
      ∃ row, (view state.2).block? 2 = some row ∧
        row.Built (· ∈ Overtaken.stale :: [1, 2, 3].map Overtaken.chain) 2 := by
  let delivered (b : Block) : Prop := b ∈ Overtaken.stale :: [1, 2, 3].map Overtaken.chain
  obtain ⟨past, report, s, path, _, _, _, checkpoint⟩ := Overtaken.path
    (show (Answers.delivering delivered).head ⟨some 3, none⟩ from trivial)
    (fun n hn b hb => by
      cases hb
      exact List.mem_cons_of_mem _ (List.mem_map_of_mem hn))
  have written : Reachable delivered 1 (.ended (.ok {}), Overtaken.store) :=
    .write Overtaken.plan.options [Overtaken.stale]
      (fun b hb => List.mem_singleton.mp hb ▸ List.mem_cons_self)
      (.fresh (.ok {}) MemoryStore.view_empty)
  have reached := (Reachable.begin Overtaken.order rfl rfl written).steps path.steps
  exact ⟨_, reached, checkpoint, no_gap_below_checkpoint reached checkpoint (by decide) (by decide)⟩

end ChainIndex
