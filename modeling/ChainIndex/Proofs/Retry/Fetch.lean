import ChainIndex.Crawler.Crews
import ChainIndex.Proofs.Retry.Budget

/-!
# Fetching a block again and again

A fetch of a block is a call that is made again on faults.  An answer counts only if its block is
verified; a block that is not is a fault of the kind that no other attempt would mend.  So a fetch
brings the first verified answer, if that comes before any such fault and before the credits are
used up (`retries_within_budget`).

A worker of the crawler makes one call a turn, and other tasks have their turns in between.
`Turns` are the turns that it takes for one call, and they come to what `RetryPolicy.run` says
about the outcomes of the calls in their order (`Turns.run_eq`).
-/

namespace ChainIndex

open Retry

namespace Crawler

/-! ## Answers -/

/-- An answer of the node for a block, checked. -/
def checked (number : UInt64) (answer : Except NodeFault (Block × String)) :
    Except NodeFault (Block × String) :=
  answer.bind fun a => (a.1.verify number).map fun _ => a

theorem fetchBlock_eq (number : UInt64) (s : Script) :
    fetchBlock number s = (checked number (s.block number).1, (s.block number).2) := rfl

variable {number : UInt64} {answer : Except NodeFault (Block × String)} {b : Block} {raw : String}

theorem checked_ok_iff :
    checked number answer = .ok (b, raw) ↔ answer = .ok (b, raw) ∧ b.verify number = .ok () := by
  cases answer with
  | error fault => exact ⟨nofun, nofun⟩
  | ok a =>
    obtain ⟨c, text⟩ := a
    show (c.verify number).map (fun _ => (c, text)) = .ok (b, raw) ↔ _
    cases verified : c.verify number with
    | error fault =>
      refine ⟨nofun, fun ⟨same, ok⟩ => ?_⟩
      cases same
      cases verified.symm.trans ok
    | ok _ =>
      refine ⟨fun same => ?_, fun ⟨same, _⟩ => ?_⟩
      · cases same
        exact ⟨rfl, verified⟩
      · cases same
        rfl

/-- An answer brings a verified block, or it is a fault of its own that is worth another attempt, or
the attempt has failed for good. -/
theorem isRetryable_checked_iff : isRetryable (checked number answer) ↔
    (∀ a, checked number answer ≠ .ok a) ∧
      ∀ reason, checked number answer ≠ .error (.decode reason) := by
  cases checked number answer with
  | ok a => exact ⟨nofun, fun h => absurd rfl (h.1 a)⟩
  | error fault =>
    cases fault with
    | decode reason => exact ⟨nofun, fun h => absurd rfl (h.2 reason)⟩
    | _ => exact ⟨fun _ => ⟨nofun, nofun⟩, fun _ => rfl⟩

/-! ## Fetches -/

/-- The result of fetching a block from a node that gives these answers. -/
def fetched (p : RetryPolicy) (number : UInt64)
    (answers : Nat → Except NodeFault (Block × String)) : BlockResult :=
  let outcome := p.run fun i => checked number (answers i)
  blockResultOf number (outcome.result, outcome.retries)

/-- The first verified answer of a node: no answer before it is in the wrong shape, and the credits
are not used up before it. -/
structure FirstVerified (p : RetryPolicy) (number : UInt64)
    (answers : Nat → Except NodeFault (Block × String)) (n : Nat) (b : Block) (raw : String) :
    Prop where
  answer : answers n = .ok (b, raw)
  verified : b.verify number = .ok ()
  first : ∀ i < n, ∀ a, checked number (answers i) ≠ .ok a
  shaped : ∀ i < n, ∀ reason, checked number (answers i) ≠ .error (.decode reason)
  afforded : ∀ i < n, spent (fun j => checked number (answers j)) i < p.maxRetries.toNat

variable {p : RetryPolicy} {answers : Nat → Except NodeFault (Block × String)} {n : Nat}
  {retries : UInt32}

/-- A fetch has a result of the calls up to the first verified answer, where there is one. -/
theorem run_checked_iff :
    p.run (fun i => checked number (answers i)) = ⟨.ok (b, raw), retries, n + 1⟩ ↔
      FirstVerified p number answers n b raw ∧
        retries.toNat = spent (fun j => checked number (answers j)) n := by
  rw [RetryPolicy.run_ok_iff, checked_ok_iff]
  constructor
  · rintro ⟨⟨answer, verified⟩, cost, before⟩
    have worth := fun i hi => isRetryable_checked_iff.mp (before i hi).1
    exact ⟨⟨answer, verified, fun i hi => (worth i hi).1, fun i hi => (worth i hi).2,
      fun i hi => (before i hi).2⟩, cost⟩
  · rintro ⟨⟨answer, verified, first, shaped, afforded⟩, cost⟩
    exact ⟨⟨answer, verified⟩, cost, fun i hi =>
      ⟨isRetryable_checked_iff.mpr ⟨first i hi, shaped i hi⟩, afforded i hi⟩⟩

/-- A fetch that brings a block brings the first verified one. -/
theorem firstVerified_of_fetched (brought : (fetched p number answers).block = some b) :
    ∃ n raw, FirstVerified p number answers n b raw := by
  have accounts := RetryPolicy.accounts_run p fun i => checked number (answers i)
  rw [fetched] at brought
  rcases ran : p.run fun i => checked number (answers i) with ⟨fault | ⟨c, raw⟩, retries, attempts⟩
  · rw [ran] at brought
    cases brought
  · rw [ran] at brought accounts
    cases brought
    obtain ⟨n, rfl⟩ := Nat.exists_eq_succ_of_ne_zero (Nat.ne_of_gt accounts.called)
    exact ⟨n, raw, (run_checked_iff.mp ran).1⟩

/-- The first verified answer is what a fetch brings. -/
theorem FirstVerified.fetched_eq (h : FirstVerified p number answers n b raw) :
    fetched p number answers = ⟨number, some b, some raw, none,
      UInt32.ofNat (spent (fun j => checked number (answers j)) n)⟩ := by
  obtain ⟨s, reached, attempts⟩ := RetryPolicy.reached_of_afforded
    (fun i hi => isRetryable_checked_iff.mpr ⟨h.first i hi, h.shaped i hi⟩) h.afforded
  have cost := reached.spent.retries
  rw [attempts, Nat.add_sub_cancel] at cost
  rw [fetched, run_checked_iff.mpr ⟨h, cost⟩, ← cost, UInt32.ofNat_toNat]
  rfl

/-! ## Turns of a worker -/

/-- Where a task stands that makes a call again. -/
def progressOf (w : Crawler) (task : Task) : Progress :=
  ((w.attempts.find? fun a => a.1 = task).map (·.2)).getD {}

section Turns

variable {α : Type} {task : Task} {call : Script → Except NodeFault α × Script}
  {stream : Nat → Except NodeFault α} {w : Crawler}

theorem callNode_fst : (w.callNode task call).1 =
    match (call w.node).1 with
    | .ok a => some (.ok a, (w.progressOf task).retries)
    | .error fault =>
      match w.settings.retry.next? (w.progressOf task) fault with
      | none => some (.error fault, (w.progressOf task).retries)
      | some _ => none := by
  rw [callNode]
  rcases call w.node with ⟨fault | a, node⟩
  · cases next : w.settings.retry.next? (w.progressOf task) fault <;>
      rw [progressOf] at next <;> simp only [next, progressOf]
  · rfl

theorem progressOf_callNode {fault : NodeFault} {t : Progress}
    (failed : (call w.node).1 = .error fault)
    (next : w.settings.retry.next? (w.progressOf task) fault = some t) :
    (w.callNode task call).2.progressOf task = t := by
  rw [progressOf] at next
  rcases found : call w.node with ⟨_ | a, node⟩
  · rw [found] at failed
    cases failed
    simp only [callNode, found, next]
    split <;> simp [progressOf, wakeFirst, sleep]
  · rw [found] at failed
    cases failed

/-- A task that is to make the call again stands where the policy puts it. -/
theorem callNode_again (again : (w.callNode task call).1 = none) :
    ∃ fault, (call w.node).1 = .error fault ∧ w.settings.retry.next? (w.progressOf task) fault =
      some ((w.callNode task call).2.progressOf task) := by
  rw [callNode_fst] at again
  cases failed : (call w.node).1 with
  | ok a =>
    rw [failed] at again
    cases again
  | error fault =>
    simp only [failed] at again
    cases next : w.settings.retry.next? (w.progressOf task) fault with
    | none =>
      rw [next] at again
      cases again
    | some t => exact ⟨fault, rfl, by rw [progressOf_callNode failed next, next]⟩

/-- A task that is done with its call has its last outcome. -/
theorem callNode_finished {result : Except NodeFault α}
    (finished : (w.callNode task call).1 = some (result, retries)) :
    (call w.node).1 = result ∧ (w.progressOf task).retries = retries ∧
      ∀ fault, result = .error fault → w.settings.retry.next? (w.progressOf task) fault = none := by
  rw [callNode_fst] at finished
  cases outcome : (call w.node).1 with
  | ok a =>
    rw [outcome] at finished
    cases finished
    exact ⟨rfl, rfl, nofun⟩
  | error fault =>
    simp only [outcome] at finished
    cases next : w.settings.retry.next? (w.progressOf task) fault with
    | none =>
      rw [next] at finished
      cases finished
      refine ⟨rfl, rfl, fun _ same => ?_⟩
      cases same
      exact next
    | some t =>
      rw [next] at finished
      cases finished

/-- The turns of a task up to the one that comes next.  It has made `n` calls, with the first `n`
outcomes of a stream, and each time it is to make the call again.  In between the crawler may do
anything else, as long as the policy and the place of the task stay. -/
inductive Turns (p : RetryPolicy) (task : Task) (call : Script → Except NodeFault α × Script)
    (stream : Nat → Except NodeFault α) : Nat → Crawler → Prop
  | first {w : Crawler} (policy : w.settings.retry = p) (fresh : w.progressOf task = {}) :
      Turns p task call stream 0 w
  | again {n : Nat} {w w' : Crawler} (turns : Turns p task call stream n w)
      (outcome : (call w.node).1 = stream n) (again : (w.callNode task call).1 = none)
      (policy : w'.settings.retry = p)
      (stays : w'.progressOf task = (w.callNode task call).2.progressOf task) :
      Turns p task call stream (n + 1) w'

theorem Turns.policy (turns : Turns p task call stream n w) : w.settings.retry = p := by
  cases turns with
  | first policy => exact policy
  | again _ _ _ policy => exact policy

/-- The turns of a task are states of a run over the outcomes. -/
theorem Turns.reached (turns : Turns p task call stream n w) :
    RetryPolicy.Reached p stream (w.progressOf task) ∧ (w.progressOf task).attempts = n + 1 := by
  induction turns with
  | first _ fresh => exact fresh ▸ ⟨.start, rfl⟩
  | @again n w w' turns outcome again _ stays ih =>
    obtain ⟨reached, attempts⟩ := ih
    obtain ⟨fault, failed, next⟩ := callNode_again again
    rw [turns.policy, ← stays] at next
    have here : stream ((w.progressOf task).attempts - 1) = .error fault := by
      rw [attempts, Nat.add_sub_cancel, ← outcome, failed]
    exact ⟨reached.again here next, by rw [(RetryPolicy.of_next? next).1, attempts]⟩

/-- The last turn of a task has what the run over the outcomes says. -/
theorem Turns.run_eq (turns : Turns p task call stream n w) (outcome : (call w.node).1 = stream n)
    {result : Except NodeFault α} (finished : (w.callNode task call).1 = some (result, retries)) :
    p.run stream = ⟨result, retries, n + 1⟩ := by
  obtain ⟨reached, attempts⟩ := turns.reached
  obtain ⟨rfl, rfl, stops⟩ := callNode_finished finished
  rw [turns.policy, outcome] at stops
  have here : (w.progressOf task).attempts - 1 = n := by omega
  rw [reached.run_of_end (by rwa [here]), here, attempts, outcome]

/-- A worker that is done with fetching a block has the result of the fetch from the answers that it
got. -/
theorem Turns.fetched_eq
    (turns : Turns p task (fetchBlock number) (fun i => checked number (answers i)) n w)
    (outcome : (w.node.block number).1 = answers n)
    {result : Except NodeFault (Block × String) × UInt32}
    (finished : (w.callNode task (fetchBlock number)).1 = some result) :
    blockResultOf number result = fetched p number answers := by
  have called : (fetchBlock number w.node).1 = checked number (answers n) := by
    rw [fetchBlock_eq, outcome]
  rw [fetched, turns.run_eq called finished]

end Turns

end Crawler

/-! ## Both together -/

/-- Every run over a stream of outcomes keeps its accounts, and no counter of 32 bits overflows.
A fetch of a block brings a block just where there is a first verified answer, and then brings
that one.  This is what a worker has that gets these answers in its turns. -/
theorem retries_within_budget (p : RetryPolicy) (small : p.maxRetries < 0x80000000) {α : Type}
    (call : Nat → Except NodeFault α) (number : UInt64)
    (answers : Nat → Except NodeFault (Block × String)) :
    RetryPolicy.Accounts p call (p.run call) ∧ (p.run call).attempts < UInt32.size ∧
      (∀ b, (Crawler.fetched p number answers).block = some b →
        ∃ n raw, Crawler.FirstVerified p number answers n b raw) ∧
      (∀ n b raw, Crawler.FirstVerified p number answers n b raw →
        Crawler.fetched p number answers = ⟨number, some b, some raw, none,
          UInt32.ofNat (spent (fun i => Crawler.checked number (answers i)) n)⟩) ∧
      ∀ task n w result,
        Crawler.Turns p task (Crawler.fetchBlock number)
          (fun i => Crawler.checked number (answers i)) n w →
        (w.node.block number).1 = answers n →
        (w.callNode task (Crawler.fetchBlock number)).1 = some result →
        Crawler.blockResultOf number result = Crawler.fetched p number answers := by
  have accounts := RetryPolicy.accounts_run p call
  refine ⟨accounts, ?_, fun _ => Crawler.firstVerified_of_fetched,
    fun _ _ _ => Crawler.FirstVerified.fetched_eq,
    fun _ _ _ _ turns outcome finished => turns.fetched_eq outcome finished⟩
  have bound := accounts.attempts_le
  have half : p.maxRetries.toNat < 2147483648 := UInt32.lt_iff_toNat_lt.mp small
  show _ < 4294967296
  omega

/-- Two credits pay for two faults of an unavailable node with a broken connection in between. -/
theorem retries_within_budget_of_mixed_faults :
    let p : RetryPolicy := { maxRetries := 2 }
    let b : Block := { number := "0x7", hash := "0xaa" }
    let answers : Nat → Except NodeFault (Block × String) := fun i =>
      [.error (.unavailable 503), .error (.transport "reset"), .error (.unavailable 503)].getD i
        (.ok (b, "raw"))
    p.maxRetries < 0x80000000 ∧ Crawler.FirstVerified p 7 answers 3 b "raw" ∧
      RetryPolicy.Accounts p answers (p.run answers) ∧
      Crawler.fetched p 7 answers = ⟨7, some b, some "raw", none, 2⟩ := by
  intro p b answers
  have small : p.maxRetries < 0x80000000 := by decide
  have checks : b.verify 7 = .ok () := by cbv
  have worth : ∀ i < 3, isRetryable (Crawler.checked 7 (answers i)) := by decide
  have cost : UInt32.ofNat (spent (fun i => Crawler.checked 7 (answers i)) 3) = 2 := by decide
  have first : Crawler.FirstVerified p 7 answers 3 b "raw" :=
    ⟨rfl, checks, fun i hi => (Crawler.isRetryable_checked_iff.mp (worth i hi)).1,
      fun i hi => (Crawler.isRetryable_checked_iff.mp (worth i hi)).2, by decide⟩
  obtain ⟨accounts, -, -, brings, -⟩ := retries_within_budget p small answers 7 answers
  exact ⟨small, first, accounts, cost ▸ brings 3 b _ first⟩

end ChainIndex
