import ChainIndex.Proofs.Index.Steps

/-!
# A finished run agrees with the chain

Where the head stays the same and every fetch of a number has the block of one chain or fails,
an index run that succeeds leaves a store that agrees with that chain, from the first block of
the run to the last one.  What the store held before does not matter.

The invariant is `Midway`.  It speaks of the blocks from the first one of the run up to the
next one.

* Their rows are those of the chain.  The duration of a row was computed from the block before
  it, which was in the same window or is one of these blocks itself.
* Each hash of a transaction in them is bound to its last occurrence in some block, and that
  block is not before any of these blocks with the hash.  Windows that overlap may bind a hash
  further up or down, but never below.
* The checkpoint is what it was, or the greater of that and a number saved by the run.
-/

namespace ChainIndex

/-! ## Answers of one chain -/

/-- The head stays the same, and a fetch has the block of the chain or fails. -/
def Answers.ofChain (head : UInt64) (chain : UInt64 → Block) : Answers where
  head h := h.number = some head
  fetch r := (r.block = some (chain r.number) ∧ r.fault = none) ∨ r.isOk = false

/-- The last block of an order, for a head that stays the same. -/
def IndexOrder.lastFor (order : IndexOrder) (head : UInt64) : UInt64 :=
  match order.last with
  | some last => min last head
  | none => head

theorem IndexRun.lastBlock_ofChain {chain : UInt64 → Block} (order : IndexOrder) {head : UInt64}
    {h : HeadResult} (told : (Answers.ofChain head chain).head h) :
    lastBlock order h = .ok (order.lastFor head) := by
  have told : h.number = some head := told
  rw [lastBlock, told, IndexOrder.lastFor]
  cases order.last <;> rfl

namespace Batch

variable {head : UInt64} {chain : UInt64 → Block} {options : ClassifyOptions}
  {results : List BlockResult}

theorem sift_ofChain {r : BlockResult} {b : Block} (told : (Answers.ofChain head chain).fetch r)
    (good : sift r = .ok b) : b = chain r.number := by
  obtain ⟨hblock, hfault, _⟩ := sift_ok_iff.mp good
  rcases told with ⟨hchain, _⟩ | failed
  · rw [hblock] at hchain
    exact Option.some.inj hchain
  · simp [BlockResult.isOk, hblock, hfault] at failed

/-- The good blocks of a window are those of the chain under their numbers. -/
theorem goodBlocks_ofChain (told : ∀ r ∈ results, (Answers.ofChain head chain).fetch r) :
    goodBlocks results = (goodNumbers results).map chain := by
  induction results with
  | nil => rfl
  | cons r rest ih =>
    have ih := ih fun x hx => told x (List.mem_cons_of_mem r hx)
    cases h : sift r with
    | ok b =>
      rw [goodBlocks_cons_ok rest h, goodNumbers_cons_ok rest h, List.map_cons, ih,
        sift_ofChain (told r List.mem_cons_self) h]
    | error issue => rw [goodBlocks_cons_error rest h, goodNumbers_cons_error rest h, ih]

theorem chain_of_good (told : ∀ r ∈ results, (Answers.ofChain head chain).fetch r) {n : UInt64}
    (good : n ∈ goodNumbers results) : chain n ∈ goodBlocks results ∧ (chain n).numberWord = n := by
  constructor
  · rw [goodBlocks_ofChain told]
    exact List.mem_map_of_mem good
  · obtain ⟨r, hr, rfl, b, hb⟩ := mem_goodNumbers.mp good
    rw [← sift_ofChain (told r hr) hb]
    exact Block.numberWord_of_verify (sift_ok_iff.mp hb).2.2

/-- The rows of the transactions of a block of the chain. -/
def txRows (options : ClassifyOptions) (chain : UInt64 → Block) (n : UInt64) :
    List TransactionRow :=
  transactionsOf options [chain n]

theorem transactionsOf_map (options : ClassifyOptions) (chain : UInt64 → Block)
    (numbers : List UInt64) :
    transactionsOf options (numbers.map chain) = numbers.flatMap (txRows options chain) := by
  induction numbers with
  | nil => simp [transactionsOf]
  | cons n rest ih =>
    rw [List.map_cons, transactionsOf_cons, ih]
    rfl

end Batch

/-! ## Last occurrences -/

section Occurrences

variable {κ ρ : Type} [DecidableEq κ] {keyOf : ρ → κ} {key : κ} {rowsOf : UInt64 → List ρ}
  {numbers : List UInt64}

/-- The last row with a key in the rows of some numbers is the last one of some number, and no
number behind it has such a row. -/
theorem lastWith?_flatMap_some {row : ρ} (sorted : numbers.Pairwise (· < ·))
    (h : lastWith? keyOf (numbers.flatMap rowsOf) key = some row) :
    ∃ k ∈ numbers, lastWith? keyOf (rowsOf k) key = some row ∧
      ∀ m ∈ numbers, k < m → lastWith? keyOf (rowsOf m) key = none := by
  induction numbers with
  | nil => cases h
  | cons n rest ih =>
    obtain ⟨hn, hrest⟩ := List.pairwise_cons.mp sorted
    rw [List.flatMap_cons, lastWith?_append] at h
    cases behind : lastWith? keyOf (rest.flatMap rowsOf) key with
    | some found =>
      rw [behind, Option.some_or, Option.some.injEq] at h
      obtain ⟨k, hk, last, none_behind⟩ := ih hrest (behind.trans (congrArg some h))
      refine ⟨k, List.mem_cons_of_mem n hk, last, ?_⟩
      intro m hm above
      rcases List.mem_cons.mp hm with rfl | hm
      · exact absurd (hn k hk) (UInt64.not_lt.mpr (UInt64.le_of_lt above))
      · exact none_behind m hm above
    | none =>
      rw [behind, Option.none_or] at h
      refine ⟨n, List.mem_cons_self, h, ?_⟩
      intro m hm above
      rcases List.mem_cons.mp hm with rfl | hm
      · exact absurd above (UInt64.lt_irrefl m)
      · refine lastWith?_eq_none_iff.mpr ?_
        intro r hr
        exact lastWith?_eq_none_iff.mp behind r (List.mem_flatMap.mpr ⟨m, hm, hr⟩)

theorem lastWith?_flatMap_none (h : lastWith? keyOf (numbers.flatMap rowsOf) key = none)
    {n : UInt64} (hn : n ∈ numbers) : lastWith? keyOf (rowsOf n) key = none :=
  lastWith?_eq_none_iff.mpr fun r hr =>
    lastWith?_eq_none_iff.mp h r (List.mem_flatMap.mpr ⟨n, hn, hr⟩)

end Occurrences

/-! ## Blocks that agree -/

/-- The row of a number is that of the chain.  Behind the start, its duration is the time since
the block before it. -/
def RowAgrees (options : ClassifyOptions) (chain : UInt64 → Block) (start : UInt64) (v : View)
    (n : UInt64) : Prop :=
  ∃ duration, v.block? n = some { Batch.rowOf options (chain n) with mintDuration := duration } ∧
    (start < n → duration =
      Batch.Context.secondsBetween (chain (n - 1)).timestampSigned (chain n).timestampSigned)

/-- The blocks from `start` up to `next` agree with the chain. -/
structure Agreement (options : ClassifyOptions) (chain : UInt64 → Block)
    (start last next : UInt64) (v : View) : Prop where
  /-- Their rows are those of the chain. -/
  rows : ∀ n, start ≤ n → n < next → RowAgrees options chain start v n
  /-- Their hashes are bound to a last occurrence in a block that is not before them. -/
  transactions : ∀ n, start ≤ n → n < next → ∀ h,
    (lastWith? TransactionRow.hash (Batch.txRows options chain n) h).isSome →
      ∃ k tx, n ≤ k ∧ k ≤ last ∧
        lastWith? TransactionRow.hash (Batch.txRows options chain k) h = some tx ∧
        v.transaction? h = some tx

namespace Agreement

variable {options : ClassifyOptions} {head : UInt64} {chain : UInt64 → Block}
  {start last next : UInt64} {v v' : View}

/-- Nothing but rows matters. -/
theorem congr (h : Agreement options chain start last next v) (blocks : v'.block? = v.block?)
    (transactions : v'.transaction? = v.transaction?) :
    Agreement options chain start last next v' where
  rows n hstart below := by
    rw [RowAgrees, blocks]
    exact h.rows n hstart below
  transactions n hstart below := by
    rw [transactions]
    exact h.transactions n hstart below

/-- Fewer blocks agree, too. -/
theorem lower (h : Agreement options chain start last next v) {n : UInt64} (back : n ≤ next) :
    Agreement options chain start last n v where
  rows m hstart below := h.rows m hstart (UInt64.lt_of_lt_of_le below back)
  transactions m hstart below := h.transactions m hstart (UInt64.lt_of_lt_of_le below back)

section Window

variable {holder? : String → Option UInt64} {results : List BlockResult} {stop : UInt64}

/-- Below the block where the run goes on, a window has the blocks of the chain. -/
theorem chain_good (asked : results.map BlockResult.number = Window.numbers next stop)
    (told : ∀ r ∈ results, (Answers.ofChain head chain).fetch r) {n : UInt64} (above : next ≤ n)
    (below : n < Batch.nextAfter results stop) :
    n ∈ Batch.goodNumbers results ∧ chain n ∈ Batch.goodBlocks results ∧
      (chain n).numberWord = n := by
  have good := Batch.mem_goodNumbers.mpr (Batch.good_below_next asked above below)
  exact ⟨good, Batch.chain_of_good told good⟩

/-- Numbers before a window are none of its rows. -/
theorem not_mem_openRows (asked : results.map BlockResult.number = Window.numbers next stop)
    {n : UInt64} (before : n < next) :
    n ∉ (Batch.openRows options results).map BlockRow.number := by
  rw [Batch.openRows_numbers]
  intro inside
  obtain ⟨r, hr, rfl, _⟩ := Batch.mem_goodNumbers.mp inside
  exact absurd before (UInt64.not_lt.mpr (Batch.asked_bounds asked hr).1)

/-- The time of the block before a good one is known: that block is in the window too, or its
row agrees already. -/
theorem parentTime_of_good (h : Agreement options chain start last next v)
    (asked : results.map BlockResult.number = Window.numbers next stop)
    (told : ∀ r ∈ results, (Answers.ofChain head chain).fetch r) {n : UInt64} (behind : start < n)
    (below : n < Batch.nextAfter results stop) :
    (Batch.contextOf v holder? options results).parentTime? n =
      some (chain (n - 1)).timestampSigned := by
  obtain ⟨started, earlier⟩ := Window.le_pred behind
  have positive : n ≠ 0 := fun zero => absurd behind (zero ▸ UInt64.not_lt_zero)
  rw [Batch.Context.parentTime?, if_neg positive]
  simp only [Batch.contextOf]
  by_cases inside : next ≤ n - 1
  · obtain ⟨_, good, number⟩ := chain_good asked told inside (UInt64.lt_trans earlier below)
    have row : Batch.rowOf options (chain (n - 1)) ∈ Batch.openRows options results :=
      List.mem_map_of_mem good
    have found := lastWith?_of_nodup
      (Batch.openRows_nodup options (asked ▸ Window.numbers_nodup next stop)) row
    rw [Batch.rowOf_number, number] at found
    rw [found, Option.some_or, Option.map_some, Batch.rowOf_timestamp]
  · have before : n - 1 < next := UInt64.not_le.mp inside
    have absent : lastWith? BlockRow.number (Batch.openRows options results) (n - 1) = none :=
      lastWith?_eq_none_iff.mpr fun row hrow hk =>
        not_mem_openRows asked before (List.mem_map.mpr ⟨row, hrow, hk⟩)
    obtain ⟨duration, stored, _⟩ := h.rows (n - 1) started before
    rw [absent, Option.none_or, stored]
    exact congrArg some (Batch.rowOf_timestamp options (chain (n - 1)))

/-- The row of a good block of a window agrees. -/
theorem row_of_good (h : Agreement options chain start last next v)
    (asked : results.map BlockResult.number = Window.numbers next stop)
    (told : ∀ r ∈ results, (Answers.ofChain head chain).fetch r) {n : UInt64} (above : next ≤ n)
    (below : n < Batch.nextAfter results stop) :
    RowAgrees options chain start ((Batch.classified v holder? options results).stage v 3) n := by
  obtain ⟨_, good, number⟩ := chain_good asked told above below
  let c := Batch.contextOf v holder? options results
  have completed : c.complete (Batch.rowOf options (chain n)) ∈
      Batch.completedRows c options (Batch.goodBlocks results) := List.mem_map_of_mem good
  have stored := Batch.block?_completed (asked ▸ Window.numbers_nodup next stop) completed
  rw [Batch.Context.complete_number, Batch.rowOf_number, number] at stored
  refine ⟨_, stored, ?_⟩
  intro behind
  have parent : c.parentTime? n = some (chain (n - 1)).timestampSigned :=
    parentTime_of_good h asked told behind below
  rw [Batch.Context.mintDuration, Batch.rowOf_number, number, parent, Option.bind_some,
    Batch.rowOf_timestamp]

/-- A window that is stored makes the blocks agree up to the one where the run goes on. -/
theorem window (holder? : String → Option UInt64)
    (h : Agreement options chain start last next v) (inside : stop ≤ last)
    (asked : results.map BlockResult.number = Window.numbers next stop)
    (told : ∀ r ∈ results, (Answers.ofChain head chain).fetch r) :
    Agreement options chain start last (Batch.nextAfter results stop)
      ((Batch.classified v holder? options results).stage v 3) where
  rows n hstart below := by
    by_cases before : n < next
    · rw [RowAgrees, Batch.block?_stage_of_not_mem (asked ▸ Window.numbers_nodup next stop) 3
        (not_mem_openRows asked before)]
      exact h.rows n hstart before
    · exact row_of_good h asked told (UInt64.not_lt.mp before) below
  transactions n hstart below key occurs := by
    have sorted : (Batch.goodNumbers results).Pairwise (· < ·) := by
      have window := Window.numbers_sorted next stop
      rw [← asked] at window
      exact window.sublist (List.filter_sublist.map _)
    rw [Batch.transaction?_stage_last, Batch.goodBlocks_ofChain told, Batch.transactionsOf_map]
    cases found : lastWith? TransactionRow.hash ((Batch.goodNumbers results).flatMap
        (Batch.txRows options chain)) key with
    | some tx =>
      -- the window binds the hash to its last occurrence there
      obtain ⟨k, hk, last_of_k, none_behind⟩ := lastWith?_flatMap_some sorted found
      obtain ⟨r, hr, rfl, _⟩ := Batch.mem_goodNumbers.mp hk
      obtain ⟨lower, upper⟩ := Batch.asked_bounds asked hr
      refine ⟨r.number, tx, ?_, UInt64.le_trans upper inside, last_of_k, rfl⟩
      by_cases before : n < next
      · exact UInt64.le_trans (UInt64.le_of_lt before) lower
      · refine UInt64.not_lt.mp ?_
        intro above
        have good := (chain_good asked told (UInt64.not_lt.mp before) below).1
        rw [none_behind n good above] at occurs
        cases occurs
    | none =>
      -- so the hash occurs before the window, and is bound as it was
      have before : n < next := by
        refine UInt64.not_le.mp ?_
        intro above
        have good := (chain_good asked told above below).1
        rw [lastWith?_flatMap_none found good] at occurs
        cases occurs
      exact h.transactions n hstart before key occurs

end Window

end Agreement

/-! ## The checkpoint -/

/-- The checkpoint after a number is saved over an old one: the greater of the two. -/
def raisedOver (old : Option UInt64) (n : UInt64) : UInt64 :=
  match old with
  | some old => max old n
  | none => n

theorem max_assoc (a b c : UInt64) : max (max a b) c = max a (max b c) := by
  simp only [max]
  grind

theorem raisedOver_raisedOver (old : Option UInt64) (m n : UInt64) :
    raisedOver (some (raisedOver old m)) n = raisedOver old (max m n) := by
  cases old with
  | none => rfl
  | some old => exact max_assoc old m n

/-- The checkpoint is what it was before the run, which has stored no window from the start on, or
the greater of that and a number saved by the run. -/
def Saved (old : Option UInt64) (start last next : UInt64) (checkpoint : Option UInt64) : Prop :=
  (checkpoint = old ∧ next ≤ start) ∨
    ∃ m, checkpoint = some (raisedOver old m) ∧ next ≤ m ∧ m ≤ last + 1

theorem Saved.lower {old checkpoint : Option UInt64} {start last next n : UInt64}
    (h : Saved old start last next checkpoint) (back : n ≤ next) :
    Saved old start last n checkpoint :=
  h.imp (fun ⟨same, before⟩ => ⟨same, UInt64.le_trans back before⟩)
    fun ⟨m, saved, above, bound⟩ => ⟨m, saved, UInt64.le_trans back above, bound⟩

theorem Saved.raise {old checkpoint : Option UInt64} {start last next n : UInt64}
    (h : Saved old start last next checkpoint) (bound : n ≤ last + 1) :
    Saved old start last n (some (raisedOver checkpoint n)) := by
  rcases h with ⟨rfl, _⟩ | ⟨m, rfl, _, below⟩
  · exact .inr ⟨n, rfl, UInt64.le_refl n, bound⟩
  · refine .inr ⟨max m n, congrArg some (raisedOver_raisedOver old m n), ?_, ?_⟩
    · simp only [max]
      grind
    · simp only [max]
      grind

/-! ## The run -/

open LawfulBackend

section Run

variable (plan : IndexPlan) (order : IndexOrder) (chain : UInt64 → Block) (start last : UInt64)
  (old : Option UInt64)

/-- A run whose next block is `next`, between two windows. -/
structure Midway (next : UInt64) (s : MemoryStore) : Prop where
  bound : next ≤ last + 1
  agrees : Agreement plan.options chain start last next (view s)
  saved : Saved old start last next ((view s).checkpoint? .index)

/-- What holds of a run: it works on its order, its window is within the order, and where it has
succeeded, nothing is left to do. -/
def RunAgrees : IndexPhase → MemoryStore → Prop
  | .askHead run, s => run.order = order ∧ Midway plan chain start last old run.next s
  | .askWindow run stop, s =>
    run.order = order ∧ Midway plan chain start last old run.next s ∧ run.next ≤ stop ∧ stop ≤ last
  | .ended (.ok _), s => Midway plan chain start last old (last + 1) s
  | .ended (.error _), _ => True
  | .broken, _ => True

variable {plan order chain start last old}

theorem raised_index (s : MemoryStore) (n : UInt64) :
    raised s .index n = raisedOver ((view s).checkpoint? .index) n := rfl

theorem RunAgrees.of_error (halt : Halt) (s : MemoryStore) :
    RunAgrees plan order chain start last old (.ofResult (.error halt)) s := by
  cases halt <;> trivial

/-- A window keeps the invariant, whatever it does. -/
theorem RunAgrees.absorbed {head : UInt64} {run : IndexRun} {stop : UInt64}
    {results : List BlockResult} {s s' : MemoryStore} {result : Except Halt IndexRun}
    (small : last < 0xFFFFFFFFFFFFFFFF)
    (h : RunAgrees plan order chain start last old (.askWindow run stop) s)
    (asked : results.map BlockResult.number = Window.numbers run.next stop)
    (told : ∀ r ∈ results, (Answers.ofChain head chain).fetch r)
    (done : run.Absorbed plan stop results s result s') :
    RunAgrees plan order chain start last old (.ofResult result) s' := by
  obtain ⟨sameOrder, ⟨bound, agrees, saved⟩, lower, upper⟩ := h
  cases done with
  | givesUp => exact .of_error _ s'
  | breaksOff => exact .of_error _ s'
  | stepsBack issue order back left =>
    refine ⟨order.trans sameOrder, UInt64.le_trans back bound, ?_, ?_⟩
    · rw [left]
      exact (agrees.lower back).congr rfl rfl
    · rw [left]
      exact saved.lower back
  | @stores r' stored s' order next rows left =>
    have within : r'.next ≤ last + 1 := next ▸ Batch.nextAfter_le asked upper small
    have agrees : Agreement plan.options chain start last (Batch.nextAfter results stop)
        ((Batch.prepared plan.options results s).stage (view s) 3) :=
      agrees.window (Backend.holder? s) upper asked told
    rw [← next, ← rows] at agrees
    refine ⟨order.trans sameOrder, within, ?_, ?_⟩
    · rw [left]
      exact agrees.congr rfl rfl
    · have moved : (view s').checkpoint? .index =
          some (raisedOver ((view s).checkpoint? .index) r'.next) := by
        have kept : (view stored).checkpoint? = (view s).checkpoint? := by
          rw [rows, Batch.checkpoint?_stage]
        rw [left, raised_index, kept]
        rfl
      rw [moved]
      exact saved.raise within

theorem RunAgrees.step {head : UInt64} {before after : IndexPhase × MemoryStore}
    (small : last < 0xFFFFFFFFFFFFFFFF) (ordered : order.lastFor head = last)
    (h : RunAgrees plan order chain start last old before.1 before.2)
    (step : IndexStep plan (.ofChain head chain) before after) :
    RunAgrees plan order chain start last old after.1 after.2 := by
  cases step using IndexStep.by_results with
  | head run s answer told =>
    obtain ⟨sameOrder, midway⟩ := h
    cases answer with
    | error fault => trivial
    | ok answer =>
      have found := IndexRun.lastBlock_ofChain run.order told
      rw [sameOrder, ordered, ← sameOrder] at found
      rw [IndexPhase.onHead_ok plan run found]
      split
      case isTrue passed =>
        -- the next block is the one behind the last
        have behind : run.next = last + 1 :=
          UInt64.le_antisymm midway.bound (Window.succ_le passed)
        have done : Midway plan chain start last old (last + 1) s := behind ▸ midway
        exact done
      case isFalse more =>
        have bounds := run.windowEnd_bounds plan (UInt64.not_lt.mp more)
        exact ⟨sameOrder, midway, bounds.1, bounds.2⟩
  | uncountable => trivial
  | window run stop s answer told =>
    cases answer with
    | error fault => trivial
    | ok results =>
      obtain ⟨result, s', stepped, done⟩ := IndexPhase.onWindow_ok plan run stop results s
      rw [stepped]
      exact h.absorbed small told.1 told.2 done.absorbed

theorem RunAgrees.steps {head : UInt64} {before after : IndexPhase × MemoryStore}
    (small : last < 0xFFFFFFFFFFFFFFFF) (ordered : order.lastFor head = last)
    (h : RunAgrees plan order chain start last old before.1 before.2)
    (steps : IndexSteps plan (.ofChain head chain) before after) :
    RunAgrees plan order chain start last old after.1 after.2 := by
  induction steps with
  | refl => exact h
  | tail _ step ih => exact ih.step small ordered step

theorem RunAgrees.begins {s : MemoryStore} (some_left : IndexPhase.firstBlock order (view s) ≤ last)
    (small : last < 0xFFFFFFFFFFFFFFFF) :
    RunAgrees plan order chain (IndexPhase.firstBlock order (view s)) last
      ((view s).checkpoint? .index) (IndexPhase.start order s).1 (IndexPhase.start order s).2 := by
  have none_before (n : UInt64) (above : IndexPhase.firstBlock order (view s) ≤ n)
      (below : n < IndexPhase.firstBlock order (view s)) : False :=
    absurd above (UInt64.not_le.mpr below)
  rw [IndexPhase.start_eq]
  refine ⟨rfl, ?_, ⟨fun n above below => (none_before n above below).elim,
    fun n above below => (none_before n above below).elim⟩, .inl ⟨rfl, UInt64.le_refl _⟩⟩
  exact UInt64.le_trans some_left (UInt64.le_of_lt (Window.lt_succ small))

end Run

/-! ## The store of a finished run -/

section LastOccurrence

variable {options : ClassifyOptions} {chain : UInt64 → Block} {start last : UInt64}
  (indexed : options.indexTransactions = true)

include indexed

end LastOccurrence

end ChainIndex
