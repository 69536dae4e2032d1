import Mathlib.Data.List.Perm.Basic
import ChainIndex.Proofs.Batch.Order
import ChainIndex.Proofs.Index.Agreement

/-!
# Every reorg counts once

Where the head stays the same and every fetch of a number has the verified block of one chain or
fails, an index run that succeeds has on record, and counts, exactly the reorgs of the range from
its lowest window to the last block.  A number is a reorg of the range if it was stored with
another hash than that of the chain before the run.

The same reorg may be seen many times: at the start of a window, which makes the run step back,
again at a lower start, and again in the window that stores it.  Both checks make the same issue
(`IndexRun.leadingReorg_on`, `Batch.reorgIssues_rowOf`), and only a batch counts.

The invariant is `Repaired`.  A row is what it was before the run, or has the hash of the chain.
The reorgs counted and those still to be stored are together the reorgs of the range.
-/

namespace ChainIndex

variable {σ : Type} [Backend σ] [LawfulBackend σ]

open LawfulBackend

/-! ## Answers -/

/-- The head stays the same, and a fetch has the verified block of the chain or fails. -/
def Answers.ofVerified (head : UInt64) (chain : UInt64 → Block) : Answers where
  head := (ofChain head chain).head
  fetch r := (ofChain head chain).fetch r ∧
    (r.isOk = true → (chain r.number).verify r.number = .ok ())

/-! ## Hashes of the chain -/

variable {chain : UInt64 → Block} {head : UInt64} {v v' : View} {low last : UInt64}

/-- A number is stored with the hash of the chain. -/
def HasHash (chain : UInt64 → Block) (v : View) (n : UInt64) : Prop :=
  ∃ row, v.block? n = some row ∧ row.hash = (chain n).hashNormalized

/-- The reorg issue of a number for the hash of the chain. -/
def chainReorg? (chain : UInt64 → Block) (v : View) (n : UInt64) : Option Issue :=
  v.reorg? n (chain n).hashNormalized

/-- The reorg issues of a range. -/
def reorgsIn (chain : UInt64 → Block) (v : View) (low last : UInt64) : List Issue :=
  (Window.numbers low last).filterMap (chainReorg? chain v)

theorem mem_reorgsIn {issue : Issue} : issue ∈ reorgsIn chain v low last ↔
    ∃ n, (low ≤ n ∧ n ≤ last) ∧ chainReorg? chain v n = some issue := by
  simp only [reorgsIn, List.mem_filterMap, Window.mem_numbers]

theorem made_of_chainReorg {n : UInt64} {issue : Issue} (h : chainReorg? chain v n = some issue) :
    issue.Made := by
  obtain ⟨row, _, _, rfl⟩ := View.reorg?_eq_some.mp h
  exact .reorg n row.hash _ 0

theorem HasHash.no_reorg {n : UInt64} (h : HasHash chain v n) : chainReorg? chain v n = none := by
  obtain ⟨row, stored, same⟩ := h
  refine View.reorg?_eq_none.mpr ?_
  intro row' stored'
  cases stored.symm.trans stored'
  exact same

theorem HasHash.congr {n : UInt64} (h : HasHash chain v n) (same : v'.block? n = v.block? n) :
    HasHash chain v' n := by
  rwa [HasHash, same]

theorem chainReorg?_congr {n : UInt64} (same : v'.block? n = v.block? n) :
    chainReorg? chain v' n = chainReorg? chain v n := View.reorg?_congr same _

/-! ## Counting -/

/-- Where some numbers of a range no longer have a value, the values of the range are those left
and those that were there. -/
theorem length_filterMap_settled {α β : Type} [DecidableEq α] {all part : List α}
    {f f' : α → Option β} (hall : all.Nodup) (hpart : part.Nodup) (sub : part ⊆ all)
    (settled : ∀ a ∈ part, f' a = none) (stays : ∀ a, a ∉ part → f' a = f a) :
    (part.filterMap f).length + (all.filterMap f').length = (all.filterMap f).length := by
  let others := all.filter fun a => a ∉ part
  have split : all.Perm (part ++ others) := by
    refine (List.perm_ext_iff_of_nodup hall (List.nodup_append.mpr ⟨hpart, hall.filter _, ?_⟩)).mpr ?_
    · rintro a ha _ hother rfl
      simp [ha] at hother
    · intro a
      by_cases ha : a ∈ part
      · simp [ha, sub ha]
      · simp [ha]
  have same : others.filterMap f' = others.filterMap f :=
    List.filterMap_congr fun a ha => stays a (by simpa using (List.mem_filter.mp ha).2)
  have none_left : part.filterMap f' = [] := List.filterMap_eq_nil_iff.mpr settled
  rw [(split.filterMap f).length_eq, (split.filterMap f').length_eq, List.filterMap_append,
    List.filterMap_append, same, none_left, List.length_append, List.length_append,
    List.length_nil, Nat.zero_add]

/-! ## The results of a window -/

namespace Batch

variable {options : ClassifyOptions} {results : List BlockResult}
  {holder? : String → Option UInt64}

/-- The first result of a window has the number asked for first. -/
theorem exists_first_result {first stop : UInt64}
    (asked : results.map BlockResult.number = Window.numbers first stop) (inside : first ≤ stop) :
    ∃ result rest, results = result :: rest ∧ result.number = first := by
  have sorted := Window.numbers_sorted first stop
  have least : first ∈ Window.numbers first stop :=
    Window.mem_numbers.mpr ⟨UInt64.le_refl first, inside⟩
  cases results with
  | nil =>
    rw [← asked] at least
    cases least
  | cons result rest =>
    refine ⟨result, rest, rfl, ?_⟩
    have lower := (asked_bounds asked (List.mem_cons_self (a := result))).1
    rw [← asked, List.map_cons, List.pairwise_cons] at sorted
    rw [← asked, List.map_cons, List.mem_cons] at least
    rcases least with same | behind
    · exact same.symm
    · exact absurd (sorted.1 first behind) (UInt64.not_lt.mpr lower)

/-- The first block of a window is the one asked for first. -/
theorem leadingBlock?_asked {first stop : UInt64} {block : Block}
    (asked : results.map BlockResult.number = Window.numbers first stop) (inside : first ≤ stop)
    (leads : IndexRun.leadingBlock? results = some block) :
    ∃ r ∈ results, r.number = first ∧ r.block = some block ∧ r.isOk = true := by
  obtain ⟨result, rest, rfl, number⟩ := exists_first_result asked inside
  rw [IndexRun.leadingBlock?] at leads
  split at leads
  case isFalse => cases leads
  case isTrue whole =>
    refine ⟨result, List.mem_cons_self, number, leads, ?_⟩
    rw [BlockResult.isOk, whole, leads]
    rfl

/-- The first block of a window is that of the chain. -/
theorem leadingBlock?_ofVerified {first stop : UInt64} {block : Block}
    (asked : results.map BlockResult.number = Window.numbers first stop) (inside : first ≤ stop)
    (told : ∀ r ∈ results, (Answers.ofVerified head chain).fetch r)
    (leads : IndexRun.leadingBlock? results = some block) :
    block = chain first ∧ block.numberWord = first := by
  obtain ⟨result, hr, rfl, hblock, good⟩ := leadingBlock?_asked asked inside leads
  obtain ⟨fetched, verified⟩ := told result hr
  rcases fetched with ⟨hchain, _⟩ | failed
  · cases hblock.symm.trans hchain
    exact ⟨rfl, Block.numberWord_of_verify (verified good)⟩
  · rw [good] at failed
    cases failed

variable (told : ∀ r ∈ results, (Answers.ofChain head chain).fetch r)
include told

/-- A batch counts the reorgs of its good numbers. -/
theorem reorgs_ofChain : (classified v holder? options results).reorgs =
    ((goodNumbers results).filterMap (chainReorg? chain v)).length := by
  rw [reorgs_classified, goodBlocks_ofChain told, List.filterMap_map]
  congr 1
  refine List.filterMap_congr fun n hn => ?_
  rw [Function.comp, (chain_of_good told hn).2, chainReorg?]

/-- The reorg issues of a batch are those of its good numbers. -/
theorem reorg_issues_ofChain {issue : Issue} :
    issue ∈ (classified v holder? options results).issues ∧ issue.kind = .reorg ↔
      ∃ n ∈ goodNumbers results, chainReorg? chain v n = some issue := by
  constructor
  · rintro ⟨h, kind⟩
    obtain ⟨b, hb, h⟩ := mem_issues_of_kind_reorg h kind
    rw [goodBlocks_ofChain told] at hb
    obtain ⟨n, hn, rfl⟩ := List.mem_map.mp hb
    rw [reorgIssues_rowOf, Option.mem_toList, (chain_of_good told hn).2] at h
    exact ⟨n, hn, h⟩
  · rintro ⟨n, hn, h⟩
    obtain ⟨good, number⟩ := chain_of_good told hn
    refine ⟨mem_issues_of_reorg good ?_, ?_⟩
    · rw [reorgIssues_rowOf, Option.mem_toList, number]
      exact h
    · obtain ⟨_, _, _, rfl⟩ := View.reorg?_eq_some.mp h
      rfl

variable (hd : (results.map BlockResult.number).Nodup)
include hd

/-- A good number is stored with the hash of the chain. -/
theorem hasHash_of_good {n : UInt64} (hn : n ∈ goodNumbers results) :
    HasHash chain ((classified v holder? options results).stage v 3) n := by
  obtain ⟨good, number⟩ := chain_of_good told hn
  let c := contextOf v holder? options results
  have completed : c.complete (rowOf options (chain n)) ∈
      completedRows c options (goodBlocks results) := List.mem_map_of_mem good
  have stored := block?_completed hd completed
  rw [Context.complete_number, rowOf_number, number] at stored
  exact ⟨_, stored, rowOf_hash options (chain n)⟩

omit told in
/-- The row of any other number stays. -/
theorem block?_stage_of_not_good {n : UInt64} (hn : n ∉ goodNumbers results) :
    ((classified v holder? options results).stage v 3).block? n = v.block? n :=
  block?_stage_of_not_mem hd 3 (by rwa [openRows_numbers])

end Batch

/-! ## The invariant -/

/-- A run on the way to the next block, which has counted some reorgs.  It began with the store
`old`, and has windows with certain starts behind it, none of them below `low`. -/
structure Repaired (chain : UInt64 → Block) (old : View) (low last : UInt64)
    (starts : List UInt64) (next : UInt64) (reorgs : Nat) (v : View) : Prop where
  /-- A row is what it was, or is one of the range and has the hash of the chain. -/
  rows : ∀ n, v.block? n = old.block? n ∨ (low ≤ n ∧ n ≤ last) ∧ HasHash chain v n
  /-- From the start of each window up to the next block, the hashes are those of the chain. -/
  settled : ∀ a ∈ starts, ∀ n, a ≤ n → n < next → HasHash chain v n
  /-- The reorgs counted are those no longer there. -/
  counted : reorgs + (reorgsIn chain v low last).length = (reorgsIn chain old low last).length
  /-- The log has no other reorg issues than before and those of the range. -/
  logged : ∀ i ∈ v.log, i.kind = .reorg → i ∈ old.log ∨ i ∈ reorgsIn chain old low last
  /-- The log keeps what it had. -/
  kept : ∀ i ∈ old.log, i ∈ v.log
  /-- What was added to it was made for evidence. -/
  made : ∀ i ∈ v.log, i ∈ old.log ∨ i.Made
  /-- The reorgs no longer there are on record. -/
  recorded : ∀ n issue, chainReorg? chain old n = some issue → HasHash chain v n →
    Recorded v.log issue

namespace Repaired

variable {old : View} {starts : List UInt64} {next : UInt64} {reorgs : Nat}

/-- A run that has begun. -/
theorem begins (chain : UInt64 → Block) (v : View) (low last next : UInt64) :
    Repaired chain v low last [] next 0 v where
  rows _ := .inl rfl
  settled _ h := nomatch h
  counted := Nat.zero_add _
  logged _ h _ := .inl h
  kept _ h := h
  made _ h := .inl h
  recorded n issue h has := by
    rw [has.no_reorg] at h
    cases h

theorem congr (h : Repaired chain old low last starts next reorgs v)
    (blocks : v'.block? = v.block?) (log : v'.log = v.log) :
    Repaired chain old low last starts next reorgs v' := by
  have has (n : UInt64) : HasHash chain v' n ↔ HasHash chain v n := by rw [HasHash, HasHash, blocks]
  have left : reorgsIn chain v' low last = reorgsIn chain v low last :=
    List.filterMap_congr fun n _ => chainReorg?_congr (congrFun blocks n)
  constructor
  · simpa only [blocks, has] using h.rows
  · simpa only [has] using h.settled
  · simpa only [left] using h.counted
  · simpa only [log] using h.logged
  · simpa only [log] using h.kept
  · simpa only [log] using h.made
  · simpa only [log, has] using h.recorded

/-- A reorg of a number that is still there was there before the run, and it is one of the
range. -/
theorem reorg_before (h : Repaired chain old low last starts next reorgs v) {n : UInt64}
    {issue : Issue} (changed : chainReorg? chain v n = some issue) :
    chainReorg? chain old n = some issue := by
  rcases h.rows n with same | ⟨_, has⟩
  · rwa [← chainReorg?_congr same]
  · rw [has.no_reorg] at changed
    cases changed

/-- A step back keeps the invariant. -/
theorem stepsBack (h : Repaired chain old low last starts next reorgs v) {back : UInt64}
    (below : back ≤ next) (inside : low ≤ next ∧ next ≤ last) {issue : Issue}
    (changed : chainReorg? chain v next = some issue) :
    Repaired chain old low last (next :: starts) back reorgs (v.addIssues [issue]) where
  rows := h.rows
  settled a ha n above under := by
    rcases List.mem_cons.mp ha with rfl | ha
    · exact absurd (UInt64.lt_of_lt_of_le under below) (UInt64.not_lt.mpr above)
    · exact h.settled a ha n above (UInt64.lt_of_lt_of_le under below)
  counted := h.counted
  logged i hi kind := by
    rcases of_mem_appendIssues hi with hi | hi
    · exact h.logged i hi kind
    · cases List.mem_singleton.mp hi
      exact .inr (mem_reorgsIn.mpr ⟨next, inside, h.reorg_before changed⟩)
  kept i hi := mem_appendIssues_of_mem (h.kept i hi)
  made i hi := by
    rcases of_mem_appendIssues hi with hi | hi
    · exact h.made i hi
    · cases List.mem_singleton.mp hi
      exact .inr (made_of_chainReorg changed)
  recorded n issue hold has := recorded_appendIssues.mpr (.inl (h.recorded n issue hold has))

section Window

variable {results : List BlockResult} {stop : UInt64}

/-- A window that is stored keeps the invariant. -/
theorem stores (h : Repaired chain old low last starts next reorgs v)
    (options : ClassifyOptions) (holder? : String → Option UInt64) (above : low ≤ next)
    (inside : stop ≤ last) (asked : results.map BlockResult.number = Window.numbers next stop)
    (told : ∀ r ∈ results, (Answers.ofChain head chain).fetch r) :
    Repaired chain old low last (next :: starts) (Batch.nextAfter results stop)
      (reorgs + (Batch.classified v holder? options results).reorgs)
      ((Batch.classified v holder? options results).stage v 3) := by
  have hd : (results.map BlockResult.number).Nodup := asked ▸ Window.numbers_nodup next stop
  have good_bounds (n : UInt64) (hn : n ∈ Batch.goodNumbers results) : low ≤ n ∧ n ≤ last := by
    obtain ⟨r, hr, rfl, _⟩ := Batch.mem_goodNumbers.mp hn
    have bounds := Batch.asked_bounds asked hr
    exact ⟨UInt64.le_trans above bounds.1, UInt64.le_trans bounds.2 inside⟩
  have has (n : UInt64) (hn : n ∈ Batch.goodNumbers results) :
      HasHash chain ((Batch.classified v holder? options results).stage v 3) n :=
    Batch.hasHash_of_good told hd hn
  have stays (n : UInt64) (hn : n ∉ Batch.goodNumbers results) :
      ((Batch.classified v holder? options results).stage v 3).block? n = v.block? n :=
    Batch.block?_stage_of_not_good hd hn
  -- a number with the hash of the chain keeps it, whether it is in the window or not
  have keeps (n : UInt64) (before : HasHash chain v n) :
      HasHash chain ((Batch.classified v holder? options results).stage v 3) n := by
    by_cases hn : n ∈ Batch.goodNumbers results
    · exact has n hn
    · exact before.congr (stays n hn)
  constructor
  case rows =>
    intro n
    by_cases hn : n ∈ Batch.goodNumbers results
    · exact .inr ⟨good_bounds n hn, has n hn⟩
    · exact (h.rows n).imp (stays n hn).trans fun ⟨bounds, before⟩ => ⟨bounds, keeps n before⟩
  case settled =>
    intro a ha n hstart below
    by_cases before : n < next
    · rcases List.mem_cons.mp ha with rfl | ha
      · exact absurd before (UInt64.not_lt.mpr hstart)
      · exact keeps n (h.settled a ha n hstart before)
    · exact has n (Batch.mem_goodNumbers.mpr
        (Batch.good_below_next asked (UInt64.not_lt.mp before) below))
  case counted =>
    have hgood : (Batch.goodNumbers results).Nodup := hd.sublist (List.filter_sublist.map _)
    have left := length_filterMap_settled (f := chainReorg? chain v)
      (Window.numbers_nodup low last) hgood
      (fun n hn => Window.mem_numbers.mpr (good_bounds n hn)) (fun n hn => (has n hn).no_reorg)
      (fun n hn => chainReorg?_congr (stays n hn))
    rw [← h.counted, reorgsIn, reorgsIn, ← left, Batch.reorgs_ofChain told, Nat.add_assoc]
  case logged =>
    intro i hi kind
    rcases of_mem_appendIssues hi with hi | hi
    · exact h.logged i hi kind
    · obtain ⟨n, hn, changed⟩ := (Batch.reorg_issues_ofChain told).mp ⟨hi, kind⟩
      exact .inr (mem_reorgsIn.mpr ⟨n, good_bounds n hn, h.reorg_before changed⟩)
  case kept =>
    intro i hi
    exact mem_appendIssues_of_mem (h.kept i hi)
  case made =>
    intro i hi
    rcases of_mem_appendIssues hi with hi | hi
    · exact h.made i hi
    · exact .inr (Batch.made_of_mem_issues hi)
  case recorded =>
    intro n issue hold hnow
    refine recorded_appendIssues.mpr ?_
    rcases h.rows n with same | ⟨_, before⟩
    · have changed : chainReorg? chain v n = some issue := by rwa [chainReorg?_congr same]
      by_cases hn : n ∈ Batch.goodNumbers results
      · exact .inr (.of_mem ((Batch.reorg_issues_ofChain told).mpr ⟨n, hn, changed⟩).1)
      · rw [(hnow.congr (stays n hn).symm).no_reorg] at changed
        cases changed
    · exact .inl (h.recorded n issue hold before)

end Window

end Repaired

/-! ## The run -/

/-- What holds of a run with certain windows behind it: it works on its order, its window is
within the order, and where it has succeeded, the last block is behind it. -/
def RunRepaired (chain : UInt64 → Block) (order : IndexOrder) (old : View) (low last : UInt64)
    (starts : List UInt64) : IndexPhase → View → Prop
  | .askHead run, v =>
    run.order = order ∧ Repaired chain old low last starts run.next run.report.reorgs v
  | .askWindow run stop, v =>
    run.order = order ∧ Repaired chain old low last starts run.next run.report.reorgs v ∧
      run.next ≤ stop ∧ stop ≤ last
  | .ended (.ok report), v =>
    ∃ next, last < next ∧ Repaired chain old low last starts next report.reorgs v
  | .ended (.error _), _ => True
  | .broken, _ => True

namespace RunRepaired

variable {plan : IndexPlan} {order : IndexOrder} {old : View} {starts : List UInt64}

theorem of_error (halt : Halt) (v : View) :
    RunRepaired chain order old low last starts (.ofResult (.error halt)) v := by
  cases halt <;> trivial

/-- A window keeps the invariant, whatever its outcome. -/
theorem outcome {run : IndexRun} {stop : UInt64} {results : List BlockResult} {s s' : σ}
    {result : Except Halt IndexRun}
    (h : RunRepaired chain order old low last starts (.askWindow run stop) (view s))
    (above : low ≤ run.next) (asked : results.map BlockResult.number = Window.numbers run.next stop)
    (told : ∀ r ∈ results, (Answers.ofVerified head chain).fetch r)
    (done : run.Outcome plan stop results s result s') :
    RunRepaired chain order old low last (run.next :: starts) (.ofResult result) (view s') := by
  obtain ⟨sameOrder, repaired, lower, upper⟩ := h
  cases done with
  | givesUp => exact of_error _ _
  | breaksOff => exact of_error _ _
  | outOfTime => exact of_error _ _
  | outOfNumbers => exact of_error _ _
  | @stepsBack block issue s' first _ _ changed left =>
    obtain ⟨rfl, number⟩ := Batch.leadingBlock?_ofVerified asked lower told first
    rw [number] at changed
    refine ⟨sameOrder, ?_⟩
    rw [left]
    exact repaired.stepsBack (Window.subSaturating_le run.next plan.rewindDepth)
      ⟨above, UInt64.le_trans lower upper⟩ changed
  | stores _ _ _ _ rows left =>
    have repaired := repaired.stores plan.options (Backend.holder? s) above upper asked
      fun r hr => (told r hr).1
    refine ⟨sameOrder, repaired.congr ?_ ?_⟩
    · rw [left, View.setCheckpoint, rows]
      rfl
    · rw [left, View.setCheckpoint, rows]
      rfl

/-- A step keeps the invariant, as long as it does not go below the lowest window. -/
theorem step {before after : IndexPhase × σ} (ordered : order.lastFor head = last)
    (h : RunRepaired chain order old low last starts before.1 (view before.2))
    (above : ∀ a ∈ windowStarts [before.1], low ≤ a)
    (step : IndexStep plan (.ofVerified head chain) before after) :
    RunRepaired chain order old low last (windowStarts [before.1] ++ starts) after.1
      (view after.2) := by
  cases step using IndexStep.by_results with
  | head run s answer told =>
    obtain ⟨sameOrder, repaired⟩ := h
    cases answer with
    | error fault => trivial
    | ok answer =>
      have found : IndexRun.lastBlock run.order answer = .ok (run.order.lastFor head) :=
        IndexRun.lastBlock_ofChain run.order (show (Answers.ofChain head chain).head answer from told)
      rw [sameOrder, ordered, ← sameOrder] at found
      rw [IndexPhase.onHead_ok plan run found]
      split
      case isTrue passed => exact ⟨run.next, passed, repaired⟩
      case isFalse more =>
        have bounds := run.windowEnd_bounds plan (UInt64.not_lt.mp more)
        exact ⟨sameOrder, repaired, bounds.1, bounds.2⟩
  | uncountable => trivial
  | window run stop s answer told =>
    cases answer with
    | error fault => trivial
    | ok results =>
      obtain ⟨result, s', stepped, done⟩ := IndexPhase.onWindow_ok plan run stop results s
      rw [stepped]
      exact h.outcome (above run.next List.mem_cons_self) told.1 told.2 done

theorem path {past : List IndexPhase} {origin state : IndexPhase × σ}
    (ordered : order.lastFor head = last)
    (h : RunRepaired chain order old low last [] origin.1 (view origin.2))
    (path : IndexPath plan (.ofVerified head chain) origin past state)
    (above : ∀ a ∈ windowStarts past, low ≤ a) :
    RunRepaired chain order old low last (windowStarts past) state.1 (view state.2) := by
  induction path with
  | start => exact h
  | @step past before after _ step ih =>
    have split : windowStarts (before.1 :: past) = windowStarts [before.1] ++ windowStarts past := by
      rw [windowStarts, windowStarts, windowStarts, ← List.filterMap_append, List.singleton_append]
    rw [split, List.forall_mem_append] at above
    rw [split]
    exact (ih above.2).step ordered above.1 step

theorem begins (chain : UInt64 → Block) (order : IndexOrder) (s : σ) (low last : UInt64) :
    RunRepaired chain order (view s) low last [] (IndexPhase.start order s).1
      (view (IndexPhase.start order s).2) := by
  rw [IndexPhase.start_eq]
  exact ⟨rfl, .begins chain (view s) low last _⟩

end RunRepaired

/-! ## The reorgs of a finished run -/

/-- Where the head stays the same and every fetch has the verified block of one chain or fails, a
run that succeeds puts on record, and counts, the numbers from its lowest window to the last block
that were stored with another hash than that of the chain.  Where it has no window, there are
none.  The log has them by their checksums, and as reorgs, unless it had such a checksum before the
run, or digests collide. -/
theorem run_counts_reorgs {head : UInt64} {chain : UInt64 → Block} {plan : IndexPlan}
    {order : IndexOrder} {s s' : MemoryStore} {report : BatchReport} {past : List IndexPhase}
    (finished : IndexPath plan (.ofVerified head chain) (IndexPhase.start order s) past
      (.ended (.ok report), s'))
    (small : order.lastFor head < 0xFFFFFFFFFFFFFFFF) :
    let last := order.lastFor head
    let lowest := (windowStarts past).min?.getD (last + 1)
    let reorgs := (Window.numbers lowest last).filterMap fun n => (s.block? n).bind fun row =>
      if row.hash ≠ (chain n).hashNormalized then
        some (Issue.reorg n row.hash (chain n).hashNormalized)
      else none
    (∀ i ∈ s.log, i ∈ s'.log) ∧
    (∀ i ∈ s'.log, i.kind = .reorg → i ∈ s.log ∨ i ∈ reorgs) ∧
    (∀ i ∈ reorgs, ∃ j ∈ s'.log, j.checksum = i.checksum ∧
      (j.kind = .reorg ∨ j ∈ s.log ∨ j.Collide i)) ∧
    report.reorgs = reorgs.length := by
  intro last lowest reorgs
  have same : reorgs = reorgsIn chain (view s) lowest last := rfl
  have above : ∀ a ∈ windowStarts past, lowest ≤ a := by
    intro a ha
    cases least : (windowStarts past).min? with
    | none => simp [List.min?_eq_none_iff.mp least] at ha
    | some m =>
      simp only [lowest, least, Option.getD_some]
      exact (List.min?_eq_some_iff.mp least).2 a ha
  obtain ⟨next, behind, repaired⟩ :=
    (RunRepaired.begins chain order s lowest last).path rfl finished above
  have has (n : UInt64) (lower : lowest ≤ n) (upper : n ≤ last) : HasHash chain (view s') n := by
    cases least : (windowStarts past).min? with
    | none =>
      -- then the run had no window, and the range is empty
      simp only [lowest, least, Option.getD_none] at lower
      exact absurd (UInt64.lt_of_le_of_lt upper (Window.lt_succ small)) (UInt64.not_lt.mpr lower)
    | some m =>
      simp only [lowest, least, Option.getD_some] at lower
      exact repaired.settled m (List.min?_mem least) n lower (UInt64.lt_of_le_of_lt upper behind)
  have none_left : reorgsIn chain (view s') lowest last = [] := by
    refine List.filterMap_eq_nil_iff.mpr ?_
    intro n hn
    obtain ⟨lower, upper⟩ := Window.mem_numbers.mp hn
    exact (has n lower upper).no_reorg
  rw [same]
  refine ⟨repaired.kept, repaired.logged, ?_, ?_⟩
  · intro i hi
    obtain ⟨n, ⟨lower, upper⟩, changed⟩ := mem_reorgsIn.mp hi
    obtain ⟨j, hj, checksum⟩ := repaired.recorded n i changed (has n lower upper)
    refine ⟨j, hj, checksum, ?_⟩
    rcases repaired.made j hj with before | made
    · exact .inr (.inl before)
    have kind : i.kind = .reorg := by
      obtain ⟨_, _, _, rfl⟩ := View.reorg?_eq_some.mp changed
      rfl
    rcases made.sameEvidence_of_checksum (made_of_chainReorg changed) checksum with
      same | shifted | collide
    · exact .inl (same.kind.trans kind)
    · exact .inl (shifted.kind.trans kind)
    · exact .inr (.inr collide)
  · have counted := repaired.counted
    rw [none_left] at counted
    exact counted

theorem run_counts_reorgs_of_replaced_block :
    ∃ (past : List IndexPhase) (report : BatchReport) (s : MemoryStore),
      IndexPath Overtaken.plan (.ofVerified 3 Overtaken.chain)
        (IndexPhase.start Overtaken.order Overtaken.store) past (.ended (.ok report), s) ∧
      windowStarts past = [3, 1, 2, 1] ∧
      Overtaken.order.lastFor 3 < 0xFFFFFFFFFFFFFFFF ∧
      report.reorgs = 1 ∧
      ∃ j ∈ s.log, j.checksum = (Issue.reorg 2 "0xbb" "0xa2").checksum ∧
        (j.kind = .reorg ∨ j ∈ Overtaken.store.log ∨ j.Collide (Issue.reorg 2 "0xbb" "0xa2")) := by
  obtain ⟨past, report, s, path, starts, _⟩ := Overtaken.path
    (show (Answers.ofVerified 3 Overtaken.chain).head ⟨some 3, none⟩ from rfl)
    (fun _ hn => ⟨.inl ⟨rfl, rfl⟩, fun _ => Overtaken.verified hn⟩)
  obtain ⟨_, _, recorded, counted⟩ := run_counts_reorgs path (by decide)
  have range : Window.numbers ((windowStarts past).min?.getD (Overtaken.order.lastFor 3 + 1))
      (Overtaken.order.lastFor 3) = [1, 2, 3] := by
    rw [starts]
    decide
  rw [range] at recorded counted
  have only : ([1, 2, 3].filterMap fun n => (Overtaken.store.block? n).bind fun row =>
      if row.hash ≠ (Overtaken.chain n).hashNormalized then
        some (Issue.reorg n row.hash (Overtaken.chain n).hashNormalized)
      else none) = [Issue.reorg 2 "0xbb" "0xa2"] := by
    have seen (n : UInt64) (hn : n ∈ [1, 2, 3]) :
        (view Overtaken.store).reorg? n (Overtaken.chain n).hashNormalized =
          Overtaken.before.reorg? n (Overtaken.chain n).hashNormalized := by
      rw [View.reorg?_eq_brief, Overtaken.store_looks.1.at (List.mem_cons_of_mem 0 hn),
        ← View.reorg?_eq_brief]
    exact (List.filterMap_congr seen).trans rfl
  rw [only] at recorded counted
  exact ⟨past, report, s, path, starts, by decide, counted, recorded _ (List.mem_singleton.mpr rfl)⟩

end ChainIndex
