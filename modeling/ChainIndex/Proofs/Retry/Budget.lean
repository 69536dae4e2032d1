import ChainIndex.Retry
import Mathlib.Data.List.Range

/-!
# The budget of a call

A run makes the calls of a stream in order.  It gets to a state (`Reached`) as long as every call
before failed with a fault that is worth another attempt, and it ends in the first state that it
does not get past (`Reached.ends`).

What a state has used up follows from the faults before it alone (`Reached.spent`): a credit for
each fault of another kind, and one for every two faults of an unavailable node, in whatever order
they come.  A run gets past a fault only while that sum is below the credits of the policy.  So the
sum never exceeds them, and the faults are at most twice as many (`Spent.bounds`).
-/

namespace ChainIndex

/-! ## Outcomes of calls -/

namespace Retry

variable {α : Type}

/-- The outcome of a call is a fault of an unavailable node. -/
def isUnavailable : Except NodeFault α → Bool
  | .error fault => fault.isUnavailable
  | .ok _ => false

/-- The outcome of a call is a fault of another kind. -/
def isOtherFault : Except NodeFault α → Bool
  | .error fault => !fault.isUnavailable
  | .ok _ => false

/-- The outcome of a call is a fault that is worth another attempt. -/
def isRetryable : Except NodeFault α → Bool
  | .error fault => fault.isRetryable
  | .ok _ => false

/-- How many of the first outcomes are faults of an unavailable node. -/
def unavailable (call : Nat → Except NodeFault α) (n : Nat) : Nat :=
  (List.range n).countP fun i => isUnavailable (call i)

/-- How many of the first outcomes are faults of another kind. -/
def otherFaults (call : Nat → Except NodeFault α) (n : Nat) : Nat :=
  (List.range n).countP fun i => isOtherFault (call i)

/-- The credits that the first outcomes cost. -/
def spent (call : Nat → Except NodeFault α) (n : Nat) : Nat :=
  otherFaults call n + unavailable call n / 2

variable {call : Nat → Except NodeFault α} {n : Nat} {fault : NodeFault}

theorem spent_zero : spent call 0 = 0 := by simp [spent, otherFaults, unavailable]

theorem isRetryable_iff {outcome : Except NodeFault α} :
    isRetryable outcome ↔ ∃ fault, outcome = .error fault ∧ fault.isRetryable := by
  cases outcome with
  | ok a => exact ⟨nofun, nofun⟩
  | error fault => exact ⟨fun h => ⟨fault, rfl, h⟩, fun ⟨_, rfl, h⟩ => h⟩

theorem unavailable_succ (failed : call n = .error fault) :
    unavailable call (n + 1) = unavailable call n + if fault.isUnavailable then 1 else 0 := by
  rw [unavailable, List.range_succ, List.countP_append, List.countP_singleton, failed]
  rfl

theorem otherFaults_succ (failed : call n = .error fault) :
    otherFaults call (n + 1) = otherFaults call n + if fault.isUnavailable then 0 else 1 := by
  rw [otherFaults, List.range_succ, List.countP_append, List.countP_singleton, failed]
  show _ + (if (!fault.isUnavailable) = true then 1 else 0) = _
  cases fault.isUnavailable <;> rfl

/-- Where all outcomes are faults, each is of one of the two kinds. -/
theorem unavailable_add_otherFaults (failed : ∀ i < n, isRetryable (call i)) :
    unavailable call n + otherFaults call n = n := by
  induction n with
  | zero => rfl
  | succ n ih =>
    obtain ⟨fault, here, -⟩ := isRetryable_iff.mp (failed n (Nat.lt_succ_self n))
    have before := ih fun i hi => failed i (Nat.lt_succ_of_lt hi)
    rw [unavailable_succ here, otherFaults_succ here]
    split <;> omega

end Retry

/-! ## States of a run -/

namespace RetryPolicy

open Retry

variable {α : Type} {p : RetryPolicy} {call other : Nat → Except NodeFault α} {s t : Progress}
  {fault : NodeFault}

theorem allows_iff {retries : UInt32} : p.allows retries ↔ retries.toNat < p.maxRetries.toNat := by
  rw [allows, decide_eq_true_iff, UInt32.lt_iff_toNat_lt]

/-- A call is made again just where its fault is worth it and a credit is left. -/
theorem next?_isSome :
    (p.next? s fault).isSome ↔ fault.isRetryable ∧ s.retries.toNat < p.maxRetries.toNat := by
  rw [← allows_iff, next?]
  cases fault.isRetryable <;> cases p.allows s.retries <;> cases fault.isUnavailable <;> simp

theorem next?_eq_none :
    p.next? s fault = none ↔ (fault.isRetryable → p.maxRetries.toNat ≤ s.retries.toNat) := by
  rw [← Option.not_isSome_iff_eq_none, next?_isSome, not_and, Nat.not_lt]

/-- What a state becomes when the call is made again. -/
theorem of_next? (again : p.next? s fault = some t) :
    t.attempts = s.attempts + 1 ∧
      t.retries.toNat = s.retries.toNat +
        (if fault.isUnavailable then if s.halfCredit then 1 else 0 else 1) ∧
      t.halfCredit = (s.halfCredit ^^ fault.isUnavailable) := by
  obtain ⟨worth, left⟩ := next?_isSome.mp (Option.isSome_of_eq_some again)
  have credit : (s.retries + 1).toNat = s.retries.toNat + 1 := by
    have max := p.maxRetries.toNat_lt
    rw [UInt32.toNat_add, UInt32.toNat_one]
    omega
  have goes : (!fault.isRetryable || !p.allows s.retries) = false := by
    rw [worth, allows_iff.mpr left]
    rfl
  rw [next?, goes, if_neg Bool.false_ne_true] at again
  cases kind : fault.isUnavailable with
  | false =>
    rw [kind, if_neg Bool.false_ne_true] at again
    cases again
    exact ⟨rfl, credit, (Bool.xor_false _).symm⟩
  | true =>
    rw [kind, if_pos rfl] at again
    cases again
    refine ⟨rfl, ?_, (Bool.xor_true _).symm⟩
    cases s.halfCredit with
    | false => rfl
    | true => exact credit

/-- The states that a run gets to. -/
inductive Reached (p : RetryPolicy) (call : Nat → Except NodeFault α) : Progress → Prop
  | start : Reached p call {}
  | again {s t : Progress} {fault : NodeFault} (reached : Reached p call s)
      (failed : call (s.attempts - 1) = .error fault) (again : p.next? s fault = some t) :
      Reached p call t

/-- A run that gets to a state goes on from it. -/
theorem Reached.run_eq (reached : Reached p call s) : p.run call = p.runFrom call s := by
  induction reached with
  | start => rfl
  | @again s t fault _ failed again ih =>
    rw [ih, runFrom, failed]
    simp only
    split
    case h_1 none => cases none.symm.trans again
    case h_2 found => rw [Option.some.inj (found.symm.trans again)]

/-- A run ends in a state with an outcome that it does not get past. -/
theorem Reached.ends (reached : Reached p call s) : ∃ t, Reached p call t ∧
    p.runFrom call s = ⟨call (t.attempts - 1), t.retries, t.attempts⟩ ∧
      ∀ fault, call (t.attempts - 1) = .error fault → p.next? t fault = none := by
  fun_induction RetryPolicy.runFrom p call s with
  | case1 s a ok => exact ⟨s, reached, by rw [ok], fun _ failed => nomatch ok.symm.trans failed⟩
  | case2 s fault failed none =>
    refine ⟨s, reached, by rw [failed], fun f again => ?_⟩
    cases failed.symm.trans again
    exact none
  | case3 s fault failed t again ih => exact ih (reached.again failed again)

/-- What a run has used up in a state, by the outcomes before it. -/
structure Spent (p : RetryPolicy) (call : Nat → Except NodeFault α) (s : Progress) : Prop where
  attempts : 0 < s.attempts
  retryable : ∀ i < s.attempts - 1, isRetryable (call i)
  retries : s.retries.toNat = spent call (s.attempts - 1)
  halfCredit : s.halfCredit = decide (unavailable call (s.attempts - 1) % 2 = 1)
  afforded : ∀ i < s.attempts - 1, spent call i < p.maxRetries.toNat

theorem Reached.spent (reached : Reached p call s) : Spent p call s := by
  induction reached with
  | start => exact ⟨by decide, nofun, spent_zero.symm, rfl, nofun⟩
  | @again s t fault _ failed again ih =>
    obtain ⟨worth, left⟩ := next?_isSome.mp (Option.isSome_of_eq_some again)
    obtain ⟨attempts, retries, half⟩ := of_next? again
    have here : t.attempts - 1 = s.attempts - 1 + 1 := by
      have := ih.attempts
      omega
    refine ⟨by omega, ?_, ?_, ?_, ?_⟩
    · rw [here]
      exact Nat.forall_lt_succ_right.mpr ⟨ih.retryable, isRetryable_iff.mpr ⟨fault, failed, worth⟩⟩
    · rw [here, Retry.spent, unavailable_succ failed, otherFaults_succ failed, retries, ih.retries,
        Retry.spent, ih.halfCredit]
      cases fault.isUnavailable with
      | false => simp only [Bool.false_eq_true, if_false]; omega
      | true => simp only [if_true, decide_eq_true_eq]; split <;> omega
    · rw [here, unavailable_succ failed, half, ih.halfCredit]
      cases fault.isUnavailable with
      | false => simp only [Bool.xor_false, Bool.false_eq_true, if_false, Nat.add_zero]
      | true =>
        rw [Bool.xor_true, ← decide_not, if_pos rfl]
        exact decide_eq_decide.mpr (by omega)
    · rw [here]
      exact Nat.forall_lt_succ_right.mpr ⟨ih.afforded, ih.retries ▸ left⟩

/-- Faults that were afforded cost no more than the credits, and are at most twice as many. -/
theorem Spent.bounds (h : Spent p call s) :
    s.retries.toNat ≤ p.maxRetries.toNat ∧ s.attempts ≤ 2 * p.maxRetries.toNat + 1 := by
  have positive := h.attempts
  have retries := h.retries
  have kinds := unavailable_add_otherFaults h.retryable
  cases before : s.attempts - 1 with
  | zero =>
    rw [before, spent_zero] at retries
    omega
  | succ n =>
    rw [before] at retries kinds
    -- the last fault was afforded, and it costs at most one credit
    have afforded := h.afforded n (by omega)
    obtain ⟨fault, failed, -⟩ := isRetryable_iff.mp (h.retryable n (by omega))
    rw [unavailable_succ failed, otherFaults_succ failed] at kinds
    rw [Retry.spent, unavailable_succ failed, otherFaults_succ failed] at retries
    rw [Retry.spent] at afforded
    cases kind : fault.isUnavailable with
    | false =>
      simp only [kind, Bool.false_eq_true, if_false] at kinds retries
      omega
    | true =>
      simp only [kind, if_true] at kinds retries
      omega

/-- A run gets behind faults that are worth another attempt, each of which it can afford. -/
theorem reached_of_afforded {n : Nat} (worth : ∀ i < n, isRetryable (call i))
    (afforded : ∀ i < n, Retry.spent call i < p.maxRetries.toNat) :
    ∃ s, Reached p call s ∧ s.attempts = n + 1 := by
  induction n with
  | zero => exact ⟨{}, .start, rfl⟩
  | succ n ih =>
    obtain ⟨s, reached, attempts⟩ := ih (fun i hi => worth i (Nat.lt_succ_of_lt hi))
      fun i hi => afforded i (Nat.lt_succ_of_lt hi)
    obtain ⟨fault, failed, retryable⟩ := isRetryable_iff.mp (worth n (Nat.lt_succ_self n))
    have here : s.attempts - 1 = n := by omega
    have left : s.retries.toNat < p.maxRetries.toNat := by
      rw [reached.spent.retries, here]
      exact afforded n (Nat.lt_succ_self n)
    obtain ⟨t, again⟩ := Option.isSome_iff_exists.mp (next?_isSome.mpr ⟨retryable, left⟩)
    refine ⟨t, reached.again (here ▸ failed) again, ?_⟩
    rw [(of_next? again).1, attempts]

/-- A run ends where it does not get past an outcome. -/
theorem Reached.run_of_end (reached : Reached p call s)
    (finished : ∀ fault, call (s.attempts - 1) = .error fault → p.next? s fault = none) :
    p.run call = ⟨call (s.attempts - 1), s.retries, s.attempts⟩ := by
  rw [reached.run_eq, runFrom]
  cases outcome : call (s.attempts - 1) with
  | ok a => rfl
  | error fault =>
    simp only
    split
    case h_1 => rfl
    case h_2 again => cases (finished fault outcome).symm.trans again

/-- Whether a run gets to a state depends on the outcomes before it. -/
theorem Reached.congr (reached : Reached p call s)
    (same : ∀ i < s.attempts - 1, other i = call i) : Reached p other s := by
  induction reached with
  | start => exact .start
  | @again s t fault reached failed again ih =>
    have attempts := (of_next? again).1
    have positive := reached.spent.attempts
    refine (ih fun i hi => same i (by omega)).again ?_ again
    rw [same (s.attempts - 1) (by omega), failed]

/-! ## Whole runs -/

/-- What a run says about the calls that it made: it made them in the order of the stream, it
stopped at the first one that it could not or need not make again, and its credits follow from the
faults before. -/
structure Accounts (p : RetryPolicy) (call : Nat → Except NodeFault α) (o : RetryOutcome α) :
    Prop where
  called : 0 < o.attempts
  /-- No outcome behind the calls that were made matters. -/
  inFront : ∀ other : Nat → Except NodeFault α, (∀ i < o.attempts, other i = call i) →
    p.run other = o
  last : o.result = call (o.attempts - 1)
  retryable : ∀ i < o.attempts - 1, isRetryable (call i)
  attempts_le : o.attempts ≤ 2 * p.maxRetries.toNat + 1
  retries_eq : o.retries.toNat =
    otherFaults call (o.attempts - 1) + unavailable call (o.attempts - 1) / 2
  retries_le : o.retries.toNat ≤ p.maxRetries.toNat
  exhausted : isRetryable o.result → o.retries = p.maxRetries

theorem accounts_run (p : RetryPolicy) (call : Nat → Except NodeFault α) :
    Accounts p call (p.run call) := by
  obtain ⟨s, reached, -, finished⟩ := (Reached.start : Reached p call {}).ends
  obtain ⟨retries_le, attempts_le⟩ := reached.spent.bounds
  rw [reached.run_of_end finished]
  refine ⟨reached.spent.attempts, fun other same => ?_, rfl, reached.spent.retryable, attempts_le,
    reached.spent.retries, retries_le, fun worth => ?_⟩
  · have last : other (s.attempts - 1) = call (s.attempts - 1) :=
      same _ (Nat.sub_one_lt_of_lt reached.spent.attempts)
    have reached' := reached.congr fun i hi => same i (Nat.lt_of_lt_pred hi)
    rw [reached'.run_of_end fun fault failed => finished fault (last ▸ failed), last]
  · obtain ⟨fault, failed, retryable⟩ := isRetryable_iff.mp worth
    have above := next?_eq_none.mp (finished fault failed) retryable
    exact UInt32.toNat_inj.mp (Nat.le_antisymm retries_le above)

/-- A run succeeds just where the first success of the stream comes behind faults that are worth
another attempt and that it can afford. -/
theorem run_ok_iff {a : α} {retries : UInt32} {n : Nat} :
    p.run call = ⟨.ok a, retries, n + 1⟩ ↔ call n = .ok a ∧ retries.toNat = Retry.spent call n ∧
      ∀ i < n, isRetryable (call i) ∧ Retry.spent call i < p.maxRetries.toNat := by
  constructor
  · intro ran
    obtain ⟨s, reached, -, finished⟩ := (Reached.start : Reached p call {}).ends
    rw [reached.run_of_end finished, RetryOutcome.mk.injEq] at ran
    obtain ⟨ok, rfl, attempts⟩ := ran
    have spent := reached.spent
    rw [attempts, Nat.add_sub_cancel] at ok
    have here : s.attempts - 1 = n := by omega
    refine ⟨ok, here ▸ spent.retries, fun i hi => ?_⟩
    exact ⟨spent.retryable i (here ▸ hi), spent.afforded i (here ▸ hi)⟩
  · rintro ⟨ok, cost, before⟩
    obtain ⟨s, reached, attempts⟩ := reached_of_afforded (fun i hi => (before i hi).1)
      fun i hi => (before i hi).2
    have here : s.attempts - 1 = n := by omega
    have finished : ∀ fault, call (s.attempts - 1) = .error fault → p.next? s fault = none := by
      intro fault failed
      rw [here, ok] at failed
      cases failed
    have same : s.retries = retries := by
      rw [← UInt32.toNat_inj, reached.spent.retries, here, cost]
    rw [reached.run_of_end finished, here, ok, same, attempts]

end RetryPolicy

end ChainIndex
