import Mathlib.Tactic.Ring
import ChainIndex.Proofs.Index.NoGap
import ChainIndex.Proofs.Index.Reorgs

/-!
# Every index run ends

The next block of a run moves back each time the run steps back, and this may happen again and
again, so the next block alone is no measure.  A run ends all the same, where the head stays the
same and the node answers each number always alike.

* The block that made the run step back is stored with another hash than that of the node.  The
  node has it, and every window from then on reaches it, so the window that is stored next has it.
  After that, the range has one such block less.
* While no window is stored, the run only moves back, and it cannot move below zero.
* A window that is stored without such a step moves the run on.

It may end otherwise than well or at a block that is not there: it breaks off at a window where the
time from one block to the next does not fit (`onWindow_broken_iff`).  This does not happen where no
block of the node is stamped that long after the block before it (`SteadyNode.TimesFit`).

`way` is the measure that puts the three together: the blocks still stored with another hash weigh
most, then whether the run has stepped back, then the next block.
-/

namespace ChainIndex

variable {σ : Type} [Backend σ] [LawfulBackend σ]

open LawfulBackend

/-! ## A node that answers alike -/

/-- A node whose head stays the same, and that has a verified block under a number, or none. -/
structure SteadyNode where
  /-- The newest block. -/
  head : UInt64
  /-- The block under a number. -/
  block? : UInt64 → Option Block
  /-- It is the block of that number. -/
  verified : ∀ n block, block? n = some block → block.verify n = .ok ()

namespace SteadyNode

variable {node : SteadyNode} {r : BlockResult}

/-- The chain of the node, with any block where it has none. -/
def chain (node : SteadyNode) (n : UInt64) : Block := (node.block? n).getD default

/-- The result of a fetch: the block under the number, or a failure. -/
def Tells (node : SteadyNode) (r : BlockResult) : Prop :=
  match node.block? r.number with
  | some block => r.block = some block ∧ r.fault = none
  | none => r.isOk = false

theorem Tells.sift_ok {block : Block} (h : node.Tells r) (has : node.block? r.number = some block) :
    Batch.sift r = .ok block := by
  rw [Tells, has] at h
  exact Batch.sift_ok_iff.mpr ⟨h.1, h.2, node.verified r.number block has⟩

theorem Tells.fetch (h : node.Tells r) : (Answers.ofVerified node.head node.chain).fetch r := by
  cases has : node.block? r.number with
  | some block =>
    have same : node.chain r.number = block := by rw [chain, has, Option.getD_some]
    rw [Tells, has] at h
    refine ⟨.inl ⟨?_, h.2⟩, ?_⟩
    · rw [same]
      exact h.1
    · intro _
      rw [same]
      exact node.verified r.number block has
  | none =>
    rw [Tells, has] at h
    refine ⟨.inr h, ?_⟩
    intro good
    rw [h] at good
    cases good

/-- A result that the node may send for a number. -/
def result (node : SteadyNode) (n : UInt64) : BlockResult :=
  match node.block? n with
  | some block => ⟨n, some block, none, none, 0⟩
  | none => ⟨n, none, none, some (.decode "no block"), 0⟩

theorem result_number (node : SteadyNode) (n : UInt64) : (node.result n).number = n := by
  rw [result]
  split <;> rfl

theorem tells_result (node : SteadyNode) (n : UInt64) : node.Tells (node.result n) := by
  rw [Tells, result_number, result]
  split
  · exact ⟨rfl, rfl⟩
  · rfl

end SteadyNode

/-- A run gets an answer of the node: its head, or one result per number of the window. -/
inductive AnsweredStep (plan : IndexPlan) (node : SteadyNode) :
    IndexPhase × σ → IndexPhase × σ → Prop
  /-- The head is answered. -/
  | head {run : IndexRun} {s : σ} (answer : HeadResult) (told : answer.number = some node.head) :
      AnsweredStep plan node (.askHead run, s)
        ((IndexPhase.askHead run).onHead plan (.ok answer), s)
  /-- The window is answered. -/
  | window {run : IndexRun} {stop : UInt64} {s : σ} (results : List BlockResult)
      (asked : results.map BlockResult.number = Window.numbers run.next stop)
      (told : ∀ r ∈ results, node.Tells r) :
      AnsweredStep plan node (.askWindow run stop, s)
        ((IndexPhase.askWindow run stop).onWindow plan (.ok results) s)

/-- A run with the phases it went through, newest first. -/
inductive AnsweredPath (plan : IndexPlan) (node : SteadyNode) (origin : IndexPhase × σ) :
    List IndexPhase → IndexPhase × σ → Prop
  /-- The run is where it began. -/
  | start : AnsweredPath plan node origin [] origin
  /-- One more answer. -/
  | step {past : List IndexPhase} {before after : IndexPhase × σ}
      (path : AnsweredPath plan node origin past before) (step : AnsweredStep plan node before after) :
      AnsweredPath plan node origin (before.1 :: past) after

/-- The window that started with a block made the run step back. -/
def SteppedBackAt (phases : List IndexPhase) (block : UInt64) : Prop :=
  ∃ (before after : IndexRun) (stop : UInt64),
    [.askHead after, .askWindow before stop] <:+: phases ∧ before.next = block ∧ after.next < block

theorem SteppedBackAt.cons {phases : List IndexPhase} {block : UInt64} (h : SteppedBackAt phases block)
    (phase : IndexPhase) : SteppedBackAt (phase :: phases) block := by
  obtain ⟨before, after, stop, inside, rest⟩ := h
  exact ⟨before, after, stop, inside.trans (List.suffix_cons phase phases).isInfix, rest⟩

/-- The window that a run asks for has not made it step back yet. -/
theorem SteppedBackAt.of_askWindow {phases : List IndexPhase} {run : IndexRun} {stop block : UInt64}
    (h : SteppedBackAt (.askWindow run stop :: phases) block) : SteppedBackAt phases block := by
  obtain ⟨before, after, last, inside, rest⟩ := h
  rcases List.infix_cons_iff.mp inside with first | inside
  · cases (List.cons_prefix_cons.mp first).1
  · exact ⟨before, after, last, inside, rest⟩

namespace Batch

/-- A run that stores a window with a good first block moves on. -/
theorem lt_nextAfter {results : List BlockResult} {first stop : UInt64}
    (asked : results.map BlockResult.number = Window.numbers first stop) (inside : first ≤ stop)
    (small : stop < 0xFFFFFFFFFFFFFFFF)
    (good : ∀ r ∈ results, r.number = first → ∃ block, sift r = .ok block) :
    first < nextAfter results stop := by
  rw [nextAfter]
  cases failed : (failedNumbers results).min? with
  | none => exact UInt64.lt_of_le_of_lt inside (Window.lt_succ small)
  | some f =>
    obtain ⟨r, hr, rfl, issue, failure⟩ := mem_failedNumbers.mp (List.min?_mem failed)
    rcases UInt64.le_iff_lt_or_eq.mp (asked_bounds asked hr).1 with above | same
    · exact above
    · obtain ⟨block, fine⟩ := good r hr same.symm
      rw [fine] at failure
      cases failure

end Batch

/-! ## A run on the way -/

/-- A block that made a run step back, and that no window has reached since. -/
structure SteadyNode.Retreat (node : SteadyNode) (last : UInt64) (phases : List IndexPhase)
    (next block : UInt64) (v : View) : Prop where
  /-- The run is not behind it. -/
  reached : next ≤ block
  /-- It is in the range. -/
  within : block ≤ last
  /-- The node has it. -/
  served : (node.block? block).isSome
  /-- It is stored with another hash. -/
  changed : (chainReorg? node.chain v block).isSome
  /-- It made the run step back. -/
  stepped : SteppedBackAt phases block

theorem SteadyNode.Retreat.cons {node : SteadyNode} {last next block : UInt64}
    {phases : List IndexPhase} {v : View} (h : node.Retreat last phases next block v)
    (phase : IndexPhase) : node.Retreat last (phase :: phases) next block v :=
  { h with stepped := h.stepped.cons phase }

/-- A run between two answers. -/
structure OnTheWay (node : SteadyNode) (order : IndexOrder) (phases : List IndexPhase)
    (run : IndexRun) (s : σ) : Prop where
  /-- It works on its order. -/
  ordered : run.order = order
  /-- No write fails. -/
  sturdy : Sturdy s
  /-- The block that made it step back. -/
  retreat : ∀ block, run.reorged = some block →
    node.Retreat (order.lastFor node.head) phases run.next block (view s)

/-- What holds of a run that has gone through some phases, the one it is in included. -/
def Ending (node : SteadyNode) (order : IndexOrder) (phases : List IndexPhase) :
    IndexPhase → σ → Prop
  | .askHead run, s => OnTheWay node order phases run s
  | .askWindow run stop, s =>
    OnTheWay node order phases run s ∧ run.next ≤ stop ∧ stop ≤ order.lastFor node.head ∧
      (∀ block, run.reorged = some block → block ≤ stop) ∧
      ((Window.effectiveSize order.batchSize).toNat < stop.toNat + 1 - run.next.toNat →
        run.reorged = some stop)
  | .ended result, _ => (∃ report, result = .ok report) ∨
    ∃ first stop reason, result = .error (.windowUnclassifiable first stop reason)
  | .broken, _ => True

/-! ## The measure -/

/-- The blocks of the range that are stored with another hash than that of the node. -/
def SteadyNode.strays (node : SteadyNode) (last : UInt64) (v : View) : Nat :=
  (reorgsIn node.chain v 0 last).length

theorem SteadyNode.strays_congr (node : SteadyNode) {last : UInt64} {v v' : View}
    (rows : v'.block? = v.block?) : node.strays last v' = node.strays last v :=
  congrArg List.length (List.filterMap_congr fun n _ => chainReorg?_congr (congrFun rows n))

/-- What is before a run with its next window. -/
def SteadyNode.way (node : SteadyNode) (last : UInt64) (run : IndexRun) (v : View) : Nat :=
  let size := last.toNat + 1
  node.strays last v * (2 * size + 2) +
    match run.reorged with
    | none => size + 1 + (size - run.next.toNat)
    | some _ => run.next.toNat

/-- The answers that a run can get at most. -/
def SteadyNode.answers (node : SteadyNode) (last : UInt64) : IndexPhase → View → Nat
  | .askHead run, v => 2 * node.way last run v + 2
  | .askWindow run _, v => 2 * node.way last run v + 1
  | .ended _, _ => 0
  | .broken, _ => 0

namespace OnTheWay

variable {plan : IndexPlan} {node : SteadyNode} {order : IndexOrder} {phases : List IndexPhase}
  {run : IndexRun} {stop : UInt64} {results : List BlockResult} {s s' : σ}

theorem steppedBack_next_lt {plan : IndexPlan} {run : IndexRun} (deep : 0 < plan.rewindDepth)
    (started : 0 < run.next) (inserted : Nat) : (run.steppedBack plan inserted).next < run.next := by
  rw [UInt64.lt_iff_toNat_lt] at deep started ⊢
  show (Window.subSaturating run.next plan.rewindDepth).toNat < _
  rw [Window.toNat_subSaturating]
  rw [UInt64.toNat_zero] at deep started
  omega

/-- A run that steps back remembers a block that made it do so: the first block of this window,
or one from before. -/
theorem retreat_steppedBack (h : OnTheWay node order (.askWindow run stop :: phases) run s)
    (upper : run.next ≤ order.lastFor node.head) (inserted : Nat)
    (served : (node.block? run.next).isSome)
    (changed : (chainReorg? node.chain (view s) run.next).isSome)
    (lower : (run.steppedBack plan inserted).next < run.next) :
    ∀ block, (run.steppedBack plan inserted).reorged = some block →
      node.Retreat (order.lastFor node.head)
        (.askHead (run.steppedBack plan inserted) :: .askWindow run stop :: phases)
        (run.steppedBack plan inserted).next block (view s) := by
  intro block pending
  have pending : max (run.reorged.getD run.next) run.next = block := Option.some.inj pending
  cases before : run.reorged with
  | none =>
    have here : block = run.next := by
      rw [← pending, before, Option.getD_none]
      exact UInt64.toNat_inj.mp ((Window.toNat_max _ _).trans (Nat.max_self _))
    rw [here]
    refine ⟨UInt64.le_of_lt lower, upper, served, changed, run, _, stop, ?_, rfl, lower⟩
    exact List.IsPrefix.isInfix ⟨phases, rfl⟩
  | some first =>
    have retreat := h.retreat first before
    have here : block = first := by
      rw [← pending, before, Option.getD_some, ← UInt64.toNat_inj, Window.toNat_max]
      exact Nat.max_eq_left (UInt64.le_iff_toNat_le.mp retreat.reached)
    rw [here]
    exact { retreat with
      reached := UInt64.le_trans (UInt64.le_of_lt lower) retreat.reached
      stepped := retreat.stepped.cons _ }

/-- A run that steps back moves back, and remembers a block that made it do so. -/
theorem stepsBack (h : OnTheWay node order (.askWindow run stop :: phases) run s)
    (upper : run.next ≤ order.lastFor node.head) (inserted : Nat)
    (served : (node.block? run.next).isSome)
    (changed : (chainReorg? node.chain (view s) run.next).isSome)
    (deep : 0 < plan.rewindDepth) (started : 0 < run.next)
    (rows : (view s').block? = (view s).block?) (sturdy : Sturdy s') :
    let after := run.steppedBack plan inserted
    OnTheWay node order (.askHead after :: .askWindow run stop :: phases) after s' ∧
      node.way (order.lastFor node.head) after (view s') <
        node.way (order.lastFor node.head) run (view s) := by
  intro after
  have lower : after.next < run.next := steppedBack_next_lt deep started inserted
  constructor
  · refine ⟨h.ordered, sturdy, ?_⟩
    intro block pending
    have retreat := h.retreat_steppedBack upper inserted served changed lower block pending
    refine { retreat with changed := ?_ }
    rw [chainReorg?_congr (congrFun rows block)]
    exact retreat.changed
  · have pending : after.reorged = some (max (run.reorged.getD run.next) run.next) := rfl
    rw [UInt64.lt_iff_toNat_lt] at lower
    rw [UInt64.le_iff_toNat_le] at upper
    simp only [SteadyNode.way, node.strays_congr rows, pending]
    cases run.reorged with
    | none => dsimp only; omega
    | some first => dsimp only; omega

/-- Of the blocks stored with another hash, those that a stored window has are counted. -/
theorem strays_stored {first : UInt64} (within : stop ≤ order.lastFor node.head)
    (asked : results.map BlockResult.number = Window.numbers first stop)
    (told : ∀ r ∈ results, node.Tells r)
    (rows : (view s').block? =
      ((Batch.prepared plan.options results s).stage (view s) 3).block?) :
    (Batch.prepared plan.options results s).reorgs +
        node.strays (order.lastFor node.head) (view s') =
      node.strays (order.lastFor node.head) (view s) := by
  have counted := ((Repaired.begins node.chain (view s) 0 (order.lastFor node.head) first).stores
    plan.options (Backend.holder? s) UInt64.zero_le within asked
    fun r hr => (told r hr).fetch.1).counted
  rw [Nat.zero_add] at counted
  rwa [node.strays_congr rows]

theorem good_of_served (told : ∀ r ∈ results, node.Tells r) {r : BlockResult} (hr : r ∈ results)
    (has : (node.block? r.number).isSome) : ∃ block, Batch.sift r = .ok block := by
  obtain ⟨block, has⟩ := Option.isSome_iff_exists.mp has
  exact ⟨block, (told r hr).sift_ok has⟩

/-- A window that reaches the block which made the run step back has it. -/
theorem counts_retreat {last block : UInt64}
    (retreat : node.Retreat last phases run.next block (view s)) (covers : block ≤ stop)
    (asked : results.map BlockResult.number = Window.numbers run.next stop)
    (told : ∀ r ∈ results, node.Tells r) :
    0 < (Batch.prepared plan.options results s).reorgs := by
  obtain ⟨r, hr, number⟩ : ∃ r ∈ results, r.number = block := by
    have window := Window.mem_numbers.mpr ⟨retreat.reached, covers⟩
    rw [← asked] at window
    exact List.mem_map.mp window
  have good := good_of_served told hr (number ▸ retreat.served)
  obtain ⟨issue, changed⟩ := Option.isSome_iff_exists.mp retreat.changed
  have stray : issue ∈ (Batch.goodNumbers results).filterMap (chainReorg? node.chain (view s)) :=
    List.mem_filterMap.mpr ⟨block, Batch.mem_goodNumbers.mpr ⟨r, hr, number, good⟩, changed⟩
  rw [Batch.prepared, Batch.reorgs_ofChain fun r hr => (told r hr).fetch.1]
  exact List.length_pos_of_mem stray

theorem wentOn_forgets {next : UInt64} {batch : Batch} {inserted : Nat}
    (covers : ∀ block, run.reorged = some block → block ≤ stop) :
    (run.wentOn stop next batch inserted).reorged = none := by
  show run.reorged.filter _ = none
  cases pending : run.reorged with
  | none => rfl
  | some block =>
    rw [Option.filter_some, decide_eq_false (UInt64.not_lt.mpr (covers block pending))]
    rfl

/-- A run that stores a window forgets the block that made it step back.  Either that was there,
and one block less is stored with another hash, or the run moves on. -/
theorem stores (h : OnTheWay node order (.askWindow run stop :: phases) run s)
    (inside : run.next ≤ stop) (within : stop ≤ order.lastFor node.head)
    (small : order.lastFor node.head < 0xFFFFFFFFFFFFFFFF)
    (covers : ∀ block, run.reorged = some block → block ≤ stop)
    (asked : results.map BlockResult.number = Window.numbers run.next stop)
    (told : ∀ r ∈ results, node.Tells r) (served : (node.block? run.next).isSome) (inserted : Nat)
    (rows : (view s').block? =
      ((Batch.prepared plan.options results s).stage (view s) 3).block?) (sturdy : Sturdy s') :
    let after := run.wentOn stop (Batch.nextAfter results stop)
      (Batch.prepared plan.options results s) inserted
    OnTheWay node order (.askHead after :: .askWindow run stop :: phases) after s' ∧
      node.way (order.lastFor node.head) after (view s') <
        node.way (order.lastFor node.head) run (view s) := by
  intro after
  have counted := strays_stored within asked told rows
  have forgets : after.reorged = none := wentOn_forgets covers
  constructor
  · refine ⟨h.ordered, sturdy, ?_⟩
    intro block pending
    rw [forgets] at pending
    cases pending
  · have ahead : run.next < after.next := Batch.lt_nextAfter asked inside
      (UInt64.lt_of_le_of_lt within small) fun r hr number =>
        good_of_served told hr (number ▸ served)
    rw [UInt64.lt_iff_toNat_lt] at ahead
    have bounds := UInt64.le_iff_toNat_le.mp (UInt64.le_trans inside within)
    cases pending : run.reorged with
    | none =>
      have weight := Nat.mul_le_mul_right (2 * ((order.lastFor node.head).toNat + 1) + 2)
        (Nat.le.intro ((Nat.add_comm _ _).trans counted))
      simp only [SteadyNode.way, forgets, pending]
      omega
    | some block =>
      have one : 0 < (Batch.prepared plan.options results s).reorgs :=
        counts_retreat (h.retreat block pending) (covers block pending) asked told
      have fewer : node.strays (order.lastFor node.head) (view s') + 1 ≤
          node.strays (order.lastFor node.head) (view s) := by omega
      have weight := Nat.mul_le_mul_right (2 * ((order.lastFor node.head).toNat + 1) + 2) fewer
      rw [Nat.succ_mul] at weight
      simp only [SteadyNode.way, forgets, pending]
      omega

theorem cons (h : OnTheWay node order phases run s) (phase : IndexPhase) :
    OnTheWay node order (phase :: phases) run s :=
  { h with retreat := fun block pending => (h.retreat block pending).cons phase }

end OnTheWay

/-! ## The run -/

namespace Ending

variable {plan : IndexPlan} {node : SteadyNode} {order : IndexOrder} {past : List IndexPhase}

/-- The node has the first block of a window. -/
theorem served_of_leads {first stop : UInt64} {results : List BlockResult} {block : Block}
    (asked : results.map BlockResult.number = Window.numbers first stop) (inside : first ≤ stop)
    (told : ∀ r ∈ results, node.Tells r) (leads : IndexRun.leadingBlock? results = some block) :
    (node.block? first).isSome := by
  obtain ⟨r, hr, rfl, _, good⟩ := Batch.leadingBlock?_asked asked inside leads
  have fetched := told r hr
  cases has : node.block? r.number with
  | some block => rfl
  | none =>
    rw [SteadyNode.Tells, has, good] at fetched
    cases fetched

/-- A window has a first block where the node has it. -/
theorem leads_of_served {first stop : UInt64} {results : List BlockResult}
    (asked : results.map BlockResult.number = Window.numbers first stop) (inside : first ≤ stop)
    (told : ∀ r ∈ results, node.Tells r) (has : (node.block? first).isSome) :
    ∃ block, IndexRun.leadingBlock? results = some block := by
  obtain ⟨r, rest, rfl, rfl⟩ := Batch.exists_first_result asked inside
  obtain ⟨block, has⟩ := Option.isSome_iff_exists.mp has
  have fetched := told r List.mem_cons_self
  rw [SteadyNode.Tells, has] at fetched
  refine ⟨block, ?_⟩
  rw [IndexRun.leadingBlock?, fetched.1, fetched.2]
  rfl

/-- A window that is answered brings the run nearer to its end. -/
theorem outcome {run : IndexRun} {stop : UInt64} {results : List BlockResult} {s s' : σ}
    {result : Except Halt IndexRun} (small : order.lastFor node.head < 0xFFFFFFFFFFFFFFFF)
    (h : Ending node order (.askWindow run stop :: past) (.askWindow run stop) s)
    (asked : results.map BlockResult.number = Window.numbers run.next stop)
    (told : ∀ r ∈ results, node.Tells r) (done : run.Outcome plan stop results s result s') :
    Ending node order (.ofResult result :: .askWindow run stop :: past) (.ofResult result) s' ∧
      node.answers (order.lastFor node.head) (.ofResult result) (view s') <
        node.answers (order.lastFor node.head) (.askWindow run stop) (view s) := by
  obtain ⟨onWay, inside, within, covers, _⟩ := h
  cases done with
  | @stepsBack block issue s' leads deep started changed left sturdy =>
    obtain ⟨rfl, number⟩ := Batch.leadingBlock?_ofVerified asked inside
      (fun r hr => (told r hr).fetch) leads
    rw [number] at changed
    have rows : (view s').block? = (view s).block? := by
      rw [left]
      rfl
    obtain ⟨onWay', nearer⟩ := onWay.stepsBack (UInt64.le_trans inside within) _
      (served_of_leads asked inside told leads) (Option.isSome_of_mem changed) deep started
      rows (sturdy onWay.sturdy)
    refine ⟨onWay', ?_⟩
    simp only [IndexPhase.ofResult, SteadyNode.answers]
    omega
  | @stores block stored s' leads stays _ _ rows left sturdy =>
    obtain ⟨onWay', nearer⟩ := onWay.stores inside within small covers asked told
      (served_of_leads asked inside told leads) _ (by rw [left, ← rows]; rfl) (sturdy onWay.sturdy)
    refine ⟨onWay', ?_⟩
    simp only [IndexPhase.ofResult, SteadyNode.answers]
    omega
  | givesUp => exact ⟨.inr ⟨_, _, _, rfl⟩, Nat.succ_pos _⟩
  | breaksOff frail => exact absurd onWay.sturdy frail
  | outOfTime => exact ⟨trivial, Nat.succ_pos _⟩
  | outOfNumbers => exact ⟨trivial, Nat.succ_pos _⟩

/-- Every answer brings the run nearer to its end. -/
theorem step {before after : IndexPhase × σ} (small : order.lastFor node.head < 0xFFFFFFFFFFFFFFFF)
    (h : Ending node order (before.1 :: past) before.1 before.2)
    (step : AnsweredStep plan node before after) :
    Ending node order (after.1 :: before.1 :: past) after.1 after.2 ∧
      node.answers (order.lastFor node.head) after.1 (view after.2) <
        node.answers (order.lastFor node.head) before.1 (view before.2) := by
  cases step with
  | @head run s answer told =>
    have onWay : OnTheWay node order (.askHead run :: past) run s := h
    have found : IndexRun.lastBlock run.order answer = .ok (order.lastFor node.head) := by
      rw [← onWay.ordered]
      have answered : (Answers.ofChain node.head node.chain).head answer := told
      exact IndexRun.lastBlock_ofChain run.order answered
    rw [IndexPhase.onHead_ok plan run found]
    split
    case isTrue => exact ⟨.inl ⟨_, rfl⟩, Nat.succ_pos _⟩
    case isFalse more =>
      have more := UInt64.not_lt.mp more
      have within (block : UInt64) (pending : run.reorged = some block) :=
        (onWay.retreat block pending).within
      have bounds := run.windowEnd_bounds plan more
      refine ⟨⟨onWay.cons _, bounds.1, bounds.2, ?_, ?_⟩, Nat.lt_succ_self _⟩
      · intro block pending
        exact IndexRun.reorged_le_windowEnd plan pending (within block pending)
      · intro long
        refine IndexRun.reorged_of_long_window plan more within ?_
        rwa [onWay.ordered]
  | @window run stop s results asked told =>
    obtain ⟨result, s', stepped, done⟩ := IndexPhase.onWindow_ok plan run stop results s
    rw [stepped]
    exact outcome small h asked told done

theorem path {origin state : IndexPhase × σ}
    (small : order.lastFor node.head < 0xFFFFFFFFFFFFFFFF)
    (h : Ending node order [origin.1] origin.1 origin.2)
    (path : AnsweredPath plan node origin past state) :
    Ending node order (state.1 :: past) state.1 state.2 ∧
      past.length + node.answers (order.lastFor node.head) state.1 (view state.2) ≤
        node.answers (order.lastFor node.head) origin.1 (view origin.2) := by
  induction path with
  | start => exact ⟨h, Nat.le_of_eq (Nat.zero_add _)⟩
  | @step past before after _ step ih =>
    obtain ⟨ending, spent⟩ := ih
    obtain ⟨ending', fewer⟩ := ending.step small step
    refine ⟨ending', ?_⟩
    rw [List.length_cons]
    omega

theorem begins (node : SteadyNode) (order : IndexOrder) {s : σ} (hs : Sturdy s) :
    Ending node order [(IndexPhase.start order s).1] (IndexPhase.start order s).1
      (IndexPhase.start order s).2 := by
  rw [IndexPhase.start_eq]
  exact ⟨rfl, hs, fun block pending => nomatch pending⟩

omit [LawfulBackend σ] in
/-- A run is over, or has broken off, or it can be answered. -/
theorem over_or_answered (plan : IndexPlan) (node : SteadyNode) (phase : IndexPhase) (s : σ) :
    (∃ result, phase = .ended result) ∨ phase = .broken ∨
      ∃ state, AnsweredStep plan node (phase, s) state := by
  cases phase with
  | askHead run => exact .inr (.inr ⟨_, .head ⟨some node.head, none⟩ rfl⟩)
  | askWindow run stop =>
    refine .inr (.inr ⟨_, .window ((Window.numbers run.next stop).map node.result) ?_ ?_⟩)
    · simp [Function.comp_def, SteadyNode.result_number]
    · intro r hr
      obtain ⟨n, _, rfl⟩ := List.mem_map.mp hr
      exact node.tells_result n
  | ended result => exact .inl ⟨result, rfl⟩
  | broken => exact .inr (.inl rfl)

/-- At its start, a run has at most so many answers before it. -/
theorem answers_start_le (node : SteadyNode) (order : IndexOrder) (last : UInt64) (s : σ) :
    node.answers last (IndexPhase.start order s).1 (view (IndexPhase.start order s).2) ≤
      4 * (node.strays last (view s) + 1) * (last.toNat + 2) := by
  rw [IndexPhase.start_eq]
  simp only [SteadyNode.answers, SteadyNode.way]
  generalize node.strays last (view s) = strays
  have weight : 4 * (strays + 1) * (last.toNat + 2) =
      2 * (strays * (2 * (last.toNat + 1) + 2)) + 4 * (last.toNat + 2) := by ring
  omega

end Ending

/-! ## Times -/

namespace SteadyNode

variable {node : SteadyNode} {last : UInt64} {old v v' : View} {results : List BlockResult}

/-- The node has a block under the number with this time, or one is stored. -/
def IsTime (node : SteadyNode) (v : View) (n : UInt64) (t : Int64) : Prop :=
  (∃ block, node.block? n = some block ∧ block.timestampSigned = t) ∨
    ∃ row, v.block? n = some row ∧ row.timestamp = t

/-- No block of the node in the range is stamped `2 ^ 63` seconds or more after the block before it,
be that the node's or a stored one. -/
def TimesFit (node : SteadyNode) (last : UInt64) (v : View) : Prop :=
  ∀ n block t, n ≠ 0 → n ≤ last → node.block? n = some block → node.IsTime v (n - 1) t →
    block.timestampSigned.toInt - t.toInt < 0x8000000000000000

/-- The times that are stored are of the node, or were stored before. -/
def Dated (node : SteadyNode) (old v : View) : Prop :=
  ∀ n row, v.block? n = some row → node.IsTime old n row.timestamp

theorem Dated.congr (h : node.Dated old v) (rows : v'.block? = v.block?) : node.Dated old v' := by
  rwa [Dated, rows]

/-- A good block of a window is the one that the node has under its number. -/
theorem block?_of_good (told : ∀ r ∈ results, node.Tells r) {block : Block}
    (good : block ∈ Batch.goodBlocks results) :
    node.block? block.numberWord = some block ∧
      block.numberWord ∈ results.map BlockResult.number := by
  obtain ⟨r, hr, sifted⟩ := Batch.mem_goodBlocks.mp good
  obtain ⟨hblock, hfault, verified⟩ := Batch.sift_ok_iff.mp sifted
  have number : block.numberWord = r.number := Block.numberWord_of_verify verified
  rw [number]
  refine ⟨?_, List.mem_map_of_mem hr⟩
  have fetched := told r hr
  cases has : node.block? r.number with
  | some found =>
    rw [Tells, has, hblock] at fetched
    exact fetched.1.symm
  | none =>
    rw [Tells, has, BlockResult.isOk, hblock, hfault] at fetched
    cases fetched

/-- A window that is stored, in part or as a whole, has the times of the node. -/
theorem Dated.stage {s : σ} (h : node.Dated old (view s)) {options : ClassifyOptions}
    (told : ∀ r ∈ results, node.Tells r) (k : Nat) :
    node.Dated old ((Batch.prepared options results s).stage (view s) k) := by
  intro n row found
  rcases Batch.row_of_stage found with stands | ⟨block, good, rfl, rfl⟩
  · exact h n row stands
  · exact .inl ⟨block, (block?_of_good told good).1, (Batch.rowOf_timestamp options block).symm⟩

/-- Where the times of the node fit, those of a window do. -/
theorem TimesFit.window (h : node.TimesFit last old) (dated : node.Dated old v)
    (told : ∀ r ∈ results, node.Tells r)
    (within : ∀ n ∈ results.map BlockResult.number, n ≤ last) : Batch.TimesFit v results := by
  intro block good t before
  obtain ⟨has, asked⟩ := block?_of_good told good
  rw [Batch.timeBefore?] at before
  split at before
  case isTrue => cases before
  case isFalse positive =>
    refine h _ block t positive (within _ asked) has ?_
    rcases Option.or_eq_some_iff.mp before with inside | ⟨_, stored⟩
    · obtain ⟨parent, found, rfl⟩ := Option.map_eq_some_iff.mp inside
      obtain ⟨good, number⟩ := lastWith?_some found
      exact .inl ⟨parent, number ▸ (block?_of_good told good).1, rfl⟩
    · obtain ⟨row, found, rfl⟩ := Option.map_eq_some_iff.mp stored
      exact dated _ row found

end SteadyNode

section Times

variable {plan : IndexPlan} {node : SteadyNode} {order : IndexOrder} {old : View}

/-- Every answer leaves times of the node, or those that were stored before. -/
theorem AnsweredStep.dated {before after : IndexPhase × σ} (step : AnsweredStep plan node before after)
    (h : node.Dated old (view before.2)) : node.Dated old (view after.2) := by
  cases step with
  | head => exact h
  | @window run stop s results _ told =>
    obtain ⟨result, s', stepped, done⟩ := IndexPhase.onWindow_ok plan run stop results s
    rw [stepped]
    cases done.absorbed with
    | stepsBack _ _ _ left => exact h.congr (by rw [left]; rfl)
    | stores _ _ rows left => exact (h.stage told 3).congr (by rw [left, ← rows]; rfl)
    | givesUp _ left => exact h.congr (by rw [left]; rfl)
    | breaksOff k left => exact (h.stage told k).congr (by rw [left])

theorem AnsweredPath.dated {origin state : IndexPhase × σ} {past : List IndexPhase}
    (path : AnsweredPath plan node origin past state) :
    node.Dated (view origin.2) (view state.2) := by
  induction path with
  | start => exact fun n row found => .inr ⟨row, found, rfl⟩
  | step _ step ih => exact step.dated ih

/-- A window breaks the run off just where its first block is there, does not make the run step back,
and the times do not fit. -/
theorem onWindow_broken_iff {run : IndexRun} {stop : UInt64} {s : σ} {results : List BlockResult}
    (hs : Sturdy s) (countable : stop ≠ Window.greatest) (inside : run.next ≤ stop)
    (asked : results.map BlockResult.number = Window.numbers run.next stop)
    (told : ∀ r ∈ results, node.Tells r) :
    ((IndexPhase.askWindow run stop).onWindow plan (.ok results) s).1 = .broken ↔
      (node.block? run.next).isSome ∧
        (plan.rewindDepth = 0 ∨ run.next = 0 ∨ chainReorg? node.chain (view s) run.next = none) ∧
        ¬ Batch.TimesFit (view s) results := by
  obtain ⟨result, s', stepped, done⟩ := IndexPhase.onWindow_ok plan run stop results s
  have leading {block : Block} (leads : IndexRun.leadingBlock? results = some block) :
      block = node.chain run.next ∧ block.numberWord = run.next :=
    Batch.leadingBlock?_ofVerified asked inside (fun r hr => (told r hr).fetch) leads
  rw [stepped]
  cases done with
  | stepsBack leads deep started changed =>
    obtain ⟨rfl, number⟩ := leading leads
    rw [number] at changed
    refine iff_of_false nofun ?_
    rintro ⟨_, shallow | zero | same, _⟩
    · exact UInt64.not_lt_zero (shallow ▸ deep)
    · exact UInt64.not_lt_zero (zero ▸ started)
    · cases same.symm.trans changed
  | stores _ _ fits => exact iff_of_false nofun fun ⟨_, _, unfit⟩ => unfit fits
  | givesUp missing =>
    refine iff_of_false nofun ?_
    rintro ⟨has, _⟩
    obtain ⟨block, leads⟩ := Ending.leads_of_served asked inside told has
    cases missing.symm.trans leads
  | breaksOff frail => exact absurd hs frail
  | outOfTime leads stays unfit =>
    obtain ⟨rfl, number⟩ := leading leads
    rw [number] at stays
    exact iff_of_true rfl ⟨Ending.served_of_leads asked inside told leads, stays, unfit⟩
  | outOfNumbers _ _ _ behind => exact absurd behind countable

/-- A run that has broken off had a window whose times do not fit. -/
theorem AnsweredPath.unfit_of_broken {s s' : σ} {past : List IndexPhase} (sturdy : Sturdy s)
    (small : order.lastFor node.head < 0xFFFFFFFFFFFFFFFF)
    (path : AnsweredPath plan node (IndexPhase.start order s) past (.broken, s')) :
    ¬ node.TimesFit (order.lastFor node.head) (view s) := by
  intro fits
  generalize here : (IndexPhase.broken, s') = state at path
  have started : (IndexPhase.start order s).2 = s := by rw [IndexPhase.start_eq]
  cases path with
  | start =>
    rw [IndexPhase.start_eq] at here
    cases here
  | step path step =>
    have dated := path.dated
    rw [started] at dated
    cases step with
    | @head run s answer told =>
      cases found : IndexRun.lastBlock run.order answer with
      | error fault =>
        simp only [IndexPhase.onHead, Except.bind, found] at here
        cases here
      | ok last =>
        rw [IndexPhase.onHead_ok plan run found] at here
        split at here <;> cases here
    | @window run stop s results asked told =>
      obtain ⟨⟨onWay, inside, within, _⟩, _⟩ := (Ending.begins node order sturdy).path small path
      have countable : stop ≠ Window.greatest :=
        UInt64.ne_of_lt (UInt64.lt_of_le_of_lt within small)
      have inRange (n : UInt64) (asked_for : n ∈ results.map BlockResult.number) :
          n ≤ order.lastFor node.head := by
        rw [asked] at asked_for
        exact UInt64.le_trans (Window.mem_numbers.mp asked_for).2 within
      obtain ⟨_, _, unfit⟩ := (onWindow_broken_iff onWay.sturdy countable inside asked told).mp
        (congrArg Prod.fst here).symm
      exact unfit (fits.window dated told inRange)

end Times

/-- Where the head stays the same, the node has one verified block under a number or always fails
there, and no write fails, a run is over after so many answers.  It ends well or because its next
block is not there, or it breaks off because times do not fit.  Its windows lie in the range.  A
window that is longer than the batch size ends at a block that made the run step back and that no
window has reached since. -/
theorem steady_run_ends {plan : IndexPlan} {node : SteadyNode} {order : IndexOrder} {s : σ}
    (sturdy : Sturdy s) (small : order.lastFor node.head < 0xFFFFFFFFFFFFFFFF)
    {past : List IndexPhase} {state : IndexPhase × σ}
    (path : AnsweredPath plan node (IndexPhase.start order s) past state) :
    let last := order.lastFor node.head
    past.length ≤ 4 * ((reorgsIn node.chain (view s) 0 last).length + 1) * (last.toNat + 2) ∧
    ((∃ report, state.1 = .ended (.ok report)) ∨
      (∃ first stop reason, state.1 = .ended (.error (.windowUnclassifiable first stop reason))) ∨
      (state.1 = .broken ∧ ¬ node.TimesFit last (view s)) ∨
      ∃ next, AnsweredStep plan node state next) ∧
    ∀ run stop, state.1 = .askWindow run stop →
      run.next ≤ stop ∧ stop ≤ last ∧
      ((Window.effectiveSize order.batchSize).toNat < stop.toNat + 1 - run.next.toNat →
        run.reorged = some stop ∧ SteppedBackAt past stop) ∧
      ∀ results, results.map BlockResult.number = Window.numbers run.next stop →
        (∀ r ∈ results, node.Tells r) →
        (((IndexPhase.askWindow run stop).onWindow plan (.ok results) state.2).1 = .broken ↔
          (node.block? run.next).isSome ∧
            (plan.rewindDepth = 0 ∨ run.next = 0 ∨
              chainReorg? node.chain (view state.2) run.next = none) ∧
            ¬ Batch.TimesFit (view state.2) results) := by
  intro last
  obtain ⟨ending, spent⟩ := (Ending.begins node order sturdy).path small path
  refine ⟨?_, ?_, ?_⟩
  · have started := Ending.answers_start_le node order last s
    exact Nat.le_trans (Nat.le_trans (Nat.le_add_right _ _) spent) started
  · obtain ⟨phase, s'⟩ := state
    rcases Ending.over_or_answered plan node phase s' with ⟨result, rfl⟩ | rfl | next
    · rcases ending with ⟨report, rfl⟩ | ⟨first, stop, reason, rfl⟩
      · exact .inl ⟨report, rfl⟩
      · exact .inr (.inl ⟨first, stop, reason, rfl⟩)
    · exact .inr (.inr (.inl ⟨rfl, path.unfit_of_broken sturdy small⟩))
    · exact .inr (.inr (.inr next))
  · intro run stop phase
    rw [phase] at ending
    obtain ⟨onWay, inside, within, _, long⟩ := ending
    refine ⟨inside, within, ?_, ?_⟩
    · intro longer
      refine ⟨long longer, ?_⟩
      exact (onWay.retreat stop (long longer)).stepped.of_askWindow
    · intro results asked told
      have countable : stop ≠ Window.greatest :=
        UInt64.ne_of_lt (UInt64.lt_of_le_of_lt within small)
      exact onWindow_broken_iff onWay.sturdy countable inside asked told

/-! ## Runs over two blocks -/

namespace TwoBlocks

/-- A node with two blocks. -/
def node (first : Block) (verified : first.verify 1 = .ok ()) : SteadyNode where
  head := 2
  block? n :=
    if n = 1 then some first
    else if n = 2 then some { number := "0x2", hash := "0xac", timestamp := "0x0" }
    else none
  verified n block h := by
    split at h
    case isTrue one =>
      cases h
      rwa [one]
    case isFalse =>
      split at h
      case isTrue two =>
        cases h
        rw [two]
        decide
      case isFalse => cases h

/-- A node whose blocks have the same time. -/
def alike : SteadyNode :=
  node { number := "0x1", hash := "0xab", timestamp := "0x0" } (by decide)

/-- A node whose first block is stamped `2 ^ 63` seconds before the second one. -/
def apart : SteadyNode :=
  node { number := "0x1", hash := "0xab", timestamp := "0x8000000000000000" } (by decide)

/-- The second block is ordered, in windows of one block. -/
def order : IndexOrder := ⟨2, some 2, 1, false⟩

/-- Both blocks are ordered. -/
def wholeOrder : IndexOrder := ⟨1, some 2, 10, true⟩

/-- A run steps back by one block. -/
def plan : IndexPlan := ⟨⟨false, false⟩, 1, 0⟩

/-- A store that has the second block with another hash. -/
def forked : MemoryStore :=
  { (default : MemoryStore) with
    blocks := Table.insert default (BlockRow.ofBlock { number := "0x2", hash := "0xaa" }) }

/-- The run of an order before its window. -/
def first (order : IndexOrder) : IndexRun := ⟨order, order.first, { nextBlock := order.first }, none⟩

omit [LawfulBackend σ] in
/-- The first window of a run has all that its order has. -/
theorem asks {node : SteadyNode} (head : node.head = 2) (order : IndexOrder) (s : σ)
    (upTo : order.last = some 2) (more : (first order).next ≤ 2)
    (whole : (first order).windowEnd plan 2 = 2) :
    AnsweredStep plan node (.askHead (first order), s) (.askWindow (first order) 2, s) := by
  have step : AnsweredStep plan node (.askHead (first order), s)
      ((IndexPhase.askHead (first order)).onHead plan (.ok ⟨some 2, none⟩), s) :=
    .head _ (congrArg some head.symm)
  have last : IndexRun.lastBlock order ⟨some 2, none⟩ = .ok 2 := by
    rw [IndexRun.lastBlock, upTo]
    rfl
  rwa [IndexPhase.onHead_of_le plan (first order) last more, whole] at step

/-- The second block makes the run step back, and its next window has both blocks. -/
theorem steps : ∃ (second : IndexRun) (s : MemoryStore),
    IndexPhase.start order forked = (.askHead (first order), forked) ∧
    AnsweredStep plan alike (.askHead (first order), forked)
      (.askWindow (first order) 2, forked) ∧
    AnsweredStep plan alike (.askWindow (first order) 2, forked) (.askHead second, s) ∧
    AnsweredStep plan alike (.askHead second, s) (.askWindow second 2, s) ∧
    second.next = 1 := by
  have started : IndexPhase.start order forked = (.askHead (first order), forked) := by
    rw [IndexPhase.start_eq]
    rfl
  have back : AnsweredStep plan alike (.askWindow (first order) 2, forked)
      ((IndexPhase.askWindow (first order) 2).onWindow plan (.ok [alike.result 2]) forked) :=
    .window _ (by decide) fun r hr => List.mem_singleton.mp hr ▸ alike.tells_result 2
  have leads : IndexRun.leadingBlock? [alike.result 2] =
    some { number := "0x2", hash := "0xac", timestamp := "0x0" } := rfl
  obtain ⟨inserted, s, stepped, _⟩ := IndexRun.absorb_stepsBack plan (first order) 2
    (show Sturdy forked from rfl) leads (by decide) (by decide)
    (View.reorg?_eq_some.mpr ⟨.ofBlock { number := "0x2", hash := "0xaa" }, by decide +kernel,
      by decide +kernel, rfl⟩)
  rw [IndexPhase.onWindow, IndexPhase.ofStep_eq, stepped] at back
  refine ⟨_, s, started, asks rfl order forked rfl (by decide) (by decide), back, ?_, rfl⟩
  generalize went : (first order).steppedBack plan inserted = second
  have again : AnsweredStep plan alike (.askHead second, s)
      ((IndexPhase.askHead second).onHead plan (.ok ⟨some 2, none⟩), s) := .head _ rfl
  have low : second.next ≤ 2 := went ▸ show (1 : UInt64) ≤ 2 by decide
  -- the window reaches the second block, since that made the run step back
  have reaches : second.windowEnd plan 2 = 2 :=
    UInt64.le_antisymm (IndexRun.windowEnd_bounds plan _ low).2
      (IndexRun.reorged_le_windowEnd plan (show _ = some 2 from went ▸ rfl) (UInt64.le_refl 2))
  have last : IndexRun.lastBlock second.order ⟨some 2, none⟩ = .ok 2 := went ▸ rfl
  rwa [IndexPhase.onHead_of_le plan second last low, reaches] at again

end TwoBlocks

/-- The next window has two blocks where one was ordered, and it ends at the second one. -/
theorem steady_run_ends_of_two_blocks : ∃ (second : IndexRun) (s : MemoryStore),
    Sturdy TwoBlocks.forked ∧
    TwoBlocks.order.lastFor TwoBlocks.alike.head < 0xFFFFFFFFFFFFFFFF ∧
    AnsweredPath TwoBlocks.plan TwoBlocks.alike
      (IndexPhase.start TwoBlocks.order TwoBlocks.forked)
      [.askHead second, .askWindow (TwoBlocks.first TwoBlocks.order) 2,
        .askHead (TwoBlocks.first TwoBlocks.order)]
      (.askWindow second 2, s) ∧
    second.next = 1 ∧ second.reorged = some 2 := by
  obtain ⟨second, s, started, asks, back, again, next⟩ := TwoBlocks.steps
  have path : AnsweredPath TwoBlocks.plan TwoBlocks.alike
      (IndexPhase.start TwoBlocks.order TwoBlocks.forked)
      [.askHead second, .askWindow (TwoBlocks.first TwoBlocks.order) 2,
        .askHead (TwoBlocks.first TwoBlocks.order)]
      (.askWindow second 2, s) := by
    rw [started]
    exact ((AnsweredPath.start.step asks).step back).step again
  obtain ⟨_, _, windows⟩ := steady_run_ends (show Sturdy TwoBlocks.forked from rfl) (by decide) path
  obtain ⟨_, _, long, _⟩ := windows second 2 rfl
  have long := long (by rw [next]; decide)
  exact ⟨second, s, rfl, by decide, path, next, long.1⟩

/-- The run breaks off where the blocks of its window are too far apart, and nothing is stored. -/
theorem steady_run_breaks_off :
    let node := TwoBlocks.apart
    let first := TwoBlocks.first TwoBlocks.wholeOrder
    Sturdy (default : MemoryStore) ∧ TwoBlocks.wholeOrder.lastFor node.head < 0xFFFFFFFFFFFFFFFF ∧
    AnsweredPath TwoBlocks.plan node
      (IndexPhase.start TwoBlocks.wholeOrder (default : MemoryStore))
      [.askWindow first 2, .askHead first] (.broken, (default : MemoryStore)) ∧
    ¬ ∃ next, AnsweredStep TwoBlocks.plan node (.broken, (default : MemoryStore)) next := by
  intro node first
  have started : IndexPhase.start TwoBlocks.wholeOrder (default : MemoryStore) =
      (.askHead first, default) := by
    rw [IndexPhase.start_eq]
    rfl
  have told : ∀ r ∈ [1, 2].map node.result, node.Tells r := by
    intro r hr
    obtain ⟨n, _, rfl⟩ := List.mem_map.mp hr
    exact node.tells_result n
  have breaks : AnsweredStep TwoBlocks.plan node (.askWindow first 2, (default : MemoryStore))
      ((IndexPhase.askWindow first 2).onWindow TwoBlocks.plan
        (.ok ([1, 2].map node.result)) default) :=
    .window _ (by decide) told
  have unfit : ¬ Batch.TimesFit (view (default : MemoryStore)) ([1, 2].map node.result) := by
    decide +kernel
  have leads : IndexRun.leadingBlock? ([1, 2].map node.result) =
    some { number := "0x1", hash := "0xab", timestamp := "0x8000000000000000" } := rfl
  rw [IndexPhase.onWindow, IndexPhase.ofStep_eq,
    IndexRun.absorb_outOfTime TwoBlocks.plan first 2 rfl unfit leads (.inr rfl)] at breaks
  refine ⟨rfl, by decide, ?_, ?_⟩
  · rw [started]
    exact (AnsweredPath.start.step (TwoBlocks.asks rfl _ _ rfl (by decide) (by decide))).step breaks
  · rintro ⟨_, step⟩
    cases step

end ChainIndex
