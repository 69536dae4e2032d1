import ChainIndex.Fault
import ChainIndex.Json.Record

/-!
# Retrying a call

A call against the node is made again as long as its fault is worth another
attempt and credits are left.  A fault of an unavailable node costs a credit only
every other time, counted over the whole run and not reset by other faults.

`RetryPolicy.next?` decides after one attempt.  `RetryPolicy.run` makes the calls
of a stream of outcomes.  It ends because each attempt after the first uses up half
a credit or more: `Retry.Progress.budget` decreases.
-/

namespace ChainIndex

/-- How often and how fast a call is made again. -/
structure RetryPolicy where
  /-- The credits of a call. -/
  maxRetries : UInt32 := 3
  /-- The least gap between two attempts, in milliseconds. -/
  minGap : UInt64 := 0
  /-- The greatest gap between two attempts, in milliseconds. -/
  maxGap : UInt64 := 200
deriving DecidableEq, Repr, Inhabited

/-- The record of a policy. -/
def RetryPolicy.shape : Shape RetryPolicy where
  title := "RetryConfig"
  blank := {}
  slots := [
    .of "max_retries" .optional Source.readWord32 fun a r => { r with maxRetries := a },
    .of "min_gap_ms" .optional Source.readWord64 fun a r => { r with minGap := a },
    .of "max_gap_ms" .optional Source.readWord64 fun a r => { r with maxGap := a }]

/-- Where a call with attempts behind it stands. -/
structure Retry.Progress where
  /-- The attempts made. -/
  attempts : Nat := 1
  /-- The credits used. -/
  retries : UInt32 := 0
  /-- The next fault of an unavailable node costs a credit. -/
  halfCredit : Bool := false
deriving DecidableEq, Repr, Inhabited

namespace RetryPolicy

/-- Another attempt is allowed after some credits were used. -/
def allows (p : RetryPolicy) (retries : UInt32) : Bool := retries < p.maxRetries

/-- The bounds of a gap, the lower one first. -/
def gapBounds (p : RetryPolicy) : UInt64 × UInt64 := (min p.minGap p.maxGap, max p.minGap p.maxGap)

/-- The state of a call that is made again after a fault, none where it is given up. -/
def next? (p : RetryPolicy) (s : Retry.Progress) (fault : NodeFault) : Option Retry.Progress :=
  if !fault.isRetryable || !p.allows s.retries then none
  else if fault.isUnavailable then
    some {
      attempts := s.attempts + 1
      retries := if s.halfCredit then s.retries + 1 else s.retries
      halfCredit := !s.halfCredit }
  else some { s with attempts := s.attempts + 1, retries := s.retries + 1 }

/-- The half credits left. -/
def budget (p : RetryPolicy) (s : Retry.Progress) : Nat :=
  2 * (p.maxRetries.toNat - s.retries.toNat) + (if s.halfCredit then 0 else 1)

/-- A call that is made again has fewer half credits left. -/
theorem budget_next?_lt {p : RetryPolicy} {s t : Retry.Progress} {fault : NodeFault}
    (h : p.next? s fault = some t) : p.budget t < p.budget s := by
  unfold next? at h
  split at h
  · simp at h
  next hgo =>
    have hlt : s.retries.toNat < p.maxRetries.toNat := by
      simp [allows, UInt32.lt_iff_toNat_lt] at hgo
      exact hgo.2
    have hmax := p.maxRetries.toNat_lt
    have hstep : (s.retries + 1).toNat = s.retries.toNat + 1 := by
      rw [UInt32.toNat_add]
      simp
      omega
    split at h
    · cases hhalf : s.halfCredit with
      | false =>
        simp only [hhalf, Bool.false_eq_true, if_false, Bool.not_false] at h
        cases h
        simp [budget, hhalf]
      | true =>
        simp only [hhalf, if_true, Bool.not_true] at h
        cases h
        simp only [budget, hhalf, hstep, if_true, Bool.false_eq_true, if_false]
        omega
    · injection h with h
      subst h
      simp only [budget, hstep]
      omega

end RetryPolicy

/-- What came of a call. -/
structure RetryOutcome (α : Type) where
  /-- The last result. -/
  result : Except NodeFault α
  /-- The credits used. -/
  retries : UInt32
  /-- The attempts made. -/
  attempts : Nat
deriving Repr

namespace RetryPolicy

variable {α : Type}

/-- The call behind the attempts of `s`, whose results are given by their order. -/
def runFrom (p : RetryPolicy) (call : Nat → Except NodeFault α) (s : Retry.Progress) :
    RetryOutcome α :=
  match call (s.attempts - 1) with
  | .ok a => ⟨.ok a, s.retries, s.attempts⟩
  | .error fault =>
    match _h : p.next? s fault with
    | none => ⟨.error fault, s.retries, s.attempts⟩
    | some t => p.runFrom call t
termination_by p.budget s
decreasing_by exact budget_next?_lt ‹_›

/-- A call whose results are given by their order. -/
def run (p : RetryPolicy) (call : Nat → Except NodeFault α) : RetryOutcome α := p.runFrom call {}

end RetryPolicy

end ChainIndex
