import ChainIndex.Evidence
import ChainIndex.Fault

/-!
# Stores

A store holds block rows by number, transaction rows by hash, one checkpoint per
pipeline, and a log of issues in which each checksum stands once.

An `Action` works on a store and may fail.  What it had changed before it failed
stays changed.  Each single operation of a `Backend` is all or nothing.

A `Checked` computation may also break off, where a number gets out of range.
-/

namespace ChainIndex

/-- A computation on a store that may stop early, with a reason. -/
abbrev Effect (ε σ : Type) := ExceptT ε (StateM σ)

/-- A computation on a store that may fail. -/
abbrev Action (σ : Type) := Effect CrawlFault σ

/-- A computation on a store that may fail, or break off where a number is out of range. -/
abbrev Checked (σ : Type) := Effect Halt σ

namespace Effect

variable {ε σ α β : Type}

/-- The result of an action and the store it leaves. -/
def on (action : Effect ε σ α) (store : σ) : Except ε α × σ := action store

@[simp] theorem on_pure (a : α) (s : σ) : (pure a : Effect ε σ α).on s = (.ok a, s) := rfl

@[simp] theorem on_throw (e : ε) (s : σ) : (throw e : Effect ε σ α).on s = (.error e, s) := rfl

theorem on_bind (action : Effect ε σ α) (next : α → Effect ε σ β) (s : σ) :
    (action >>= next).on s =
      match action.on s with
      | (.ok a, s) => (next a).on s
      | (.error fault, s) => (.error fault, s) := by
  show (match action s with | (r, s) => ExceptT.bindCont next r s) = _
  rw [on]
  obtain ⟨r, s⟩ := action s
  cases r <;> rfl

theorem on_bind_ok {action : Effect ε σ α} {next : α → Effect ε σ β} {s s' : σ} {a : α}
    (h : action.on s = (.ok a, s')) : (action >>= next).on s = (next a).on s' := by
  rw [on_bind, h]

theorem on_bind_error {action : Effect ε σ α} {next : α → Effect ε σ β} {s s' : σ} {fault : ε}
    (h : action.on s = (.error fault, s')) : (action >>= next).on s = (.error fault, s') := by
  rw [on_bind, h]

/-- Where two actions succeed one after the other, each of them does. -/
theorem of_bind_ok {action : Effect ε σ α} {next : α → Effect ε σ β} {s s' : σ} {b : β}
    (h : (action >>= next).on s = (.ok b, s')) :
    ∃ a s₁, action.on s = (.ok a, s₁) ∧ (next a).on s₁ = (.ok b, s') := by
  rcases done : action.on s with ⟨fault | a, s₁⟩
  · rw [on_bind_error done] at h
    cases h
  · exact ⟨a, s₁, rfl, (on_bind_ok done).symm.trans h⟩

theorem on_of_toOption {action : Effect ε σ α} {s : σ} {a : α}
    (h : (action.on s).1.toOption = some a) :
    action.on s = (.ok a, (action.on s).2) := by
  refine Prod.ext ?_ rfl
  cases found : (action.on s).1 with
  | error _ =>
    rw [found] at h
    cases h
  | ok _ =>
    rw [found] at h
    exact congrArg Except.ok (Option.some.inj h)

/-! ## Breaking off -/

/-- An action that may fail, among those that may break off. -/
def checked (action : Action σ α) : Checked σ α := ExceptT.adapt Halt.fault action

theorem on_checked (action : Action σ α) (s : σ) :
    action.checked.on s = ((action.on s).1.mapError .fault, (action.on s).2) := rfl

theorem on_checked_ok {action : Action σ α} {s s' : σ} {a : α} (h : action.on s = (.ok a, s')) :
    action.checked.on s = (.ok a, s') := by
  rw [on_checked, h]
  rfl

theorem of_checked_ok {action : Action σ α} {s s' : σ} {a : α}
    (h : action.checked.on s = (.ok a, s')) : action.on s = (.ok a, s') := by
  rw [on_checked] at h
  rcases done : action.on s with ⟨fault | a, s₁⟩
  · rw [done] at h
    cases h
  · rw [done] at h
    cases h
    rfl

theorem on_checked_error {action : Action σ α} {s s' : σ} {fault : CrawlFault}
    (h : action.on s = (.error fault, s')) :
    action.checked.on s = (.error (.fault fault), s') := by
  rw [on_checked, h]
  rfl

/-- Break off unless a number is in range. -/
def inRange (fits : Prop) [Decidable fits] : Checked σ Unit :=
  if fits then pure () else throw .overflow

section InRange

variable {fits : Prop} [Decidable fits] {next : Unit → Checked σ α} {s : σ}

theorem on_inRange (h : fits) : (inRange fits >>= next).on s = (next ()).on s := by
  rw [inRange, if_pos h]
  rfl

theorem on_outOfRange (h : ¬ fits) : (inRange fits >>= next).on s = (.error .overflow, s) := by
  rw [inRange, if_neg h]
  rfl

theorem of_inRange_ok {s' : σ} {a : α} (h : (inRange fits >>= next).on s = (.ok a, s')) :
    fits ∧ (next ()).on s = (.ok a, s') := by
  by_cases inside : fits
  · exact ⟨inside, (on_inRange inside).symm.trans h⟩
  · cases (on_outOfRange inside).symm.trans h

end InRange

end Effect

/-- What a store can do. -/
class Backend (σ : Type) where
  /-- The rows of the blocks with these numbers; missing numbers are skipped. -/
  getBlocks : List UInt64 → Action σ (List BlockRow)
  /-- The rows of the blocks whose hash is one of these. -/
  getBlocksByHashes : List String → Action σ (List BlockRow)
  /-- Put new and changed rows of blocks. -/
  saveBlocks : List BlockRow → List BlockRow → Action σ Unit
  /-- The rows of the transactions with these hashes; missing hashes are skipped. -/
  getTransactions : List String → Action σ (List TransactionRow)
  /-- Put new and changed rows of transactions. -/
  saveTransactions : List TransactionRow → List TransactionRow → Action σ Unit
  /-- The checkpoint of a pipeline. -/
  getCheckpoint : CheckpointKind → Action σ (Option UInt64)
  /-- Raise the checkpoint of a pipeline. -/
  saveCheckpoint : CheckpointKind → UInt64 → Action σ Unit
  /-- Add issues to the log, skipping known checksums, and how many were added. -/
  saveIssues : List Issue → Action σ Nat
  /-- The issues in the order they were added. -/
  issues : Action σ (List Issue)
  /-- The counts of blocks, transactions and issues. -/
  counts : σ → Nat × Nat × Nat

/-- The parts of a list, each of `size` items but the last. -/
def chunksOf {α : Type} (size : Nat) (items : List α) : List (List α) :=
  go items.length items
where
  /-- The parts, for a count of parts that is enough. -/
  go : Nat → List α → List (List α)
    | 0, _ => []
    | _ + 1, [] => []
    | n + 1, item :: rest =>
      (item :: rest).take (max size 1) :: go n ((item :: rest).drop (max size 1))

theorem chunksOf.go_flatten {α : Type} (size : Nat) :
    ∀ (fuel : Nat) (items : List α), items.length ≤ fuel →
      (chunksOf.go size fuel items).flatten = items
  | 0, [], _ => rfl
  | 0, _ :: _, h => absurd h (by simp)
  | _ + 1, [], _ => rfl
  | fuel + 1, item :: rest, h => by
    have shorter : ((item :: rest).drop (max size 1)).length ≤ fuel := by
      simp only [List.length_drop, List.length_cons] at h ⊢
      omega
    rw [chunksOf.go, List.flatten_cons, go_flatten size fuel _ shorter, List.take_append_drop]

/-- The parts of a list are the list. -/
theorem chunksOf_flatten {α : Type} (size : Nat) (items : List α) :
    (chunksOf size items).flatten = items :=
  chunksOf.go_flatten size items.length items (Nat.le_refl _)

/-! ## The log of issues -/

/-- A log has the evidence of an issue. -/
def Recorded (log : List Issue) (issue : Issue) : Prop := ∃ i ∈ log, i.checksum = issue.checksum

instance (log : List Issue) (issue : Issue) : Decidable (Recorded log issue) :=
  inferInstanceAs (Decidable (∃ i ∈ log, i.checksum = issue.checksum))

/-- Issues added to a log, skipping checksums that stand there, and how many were
added. -/
def appendIssues (log : List Issue) : List Issue → Nat × List Issue
  | [] => (0, log)
  | issue :: rest =>
    if Recorded log issue then appendIssues log rest
    else
      let (added, log) := appendIssues (log ++ [issue]) rest
      (added + 1, log)

theorem Recorded.congr {log : List Issue} {i j : Issue} (h : Recorded log i)
    (same : i.checksum = j.checksum) : Recorded log j := by
  obtain ⟨k, hk, hc⟩ := h
  exact ⟨k, hk, hc.trans same⟩

theorem Recorded.of_mem {log : List Issue} {issue : Issue} (h : issue ∈ log) : Recorded log issue :=
  ⟨issue, h, rfl⟩

theorem recorded_append {front back : List Issue} {issue : Issue} :
    Recorded (front ++ back) issue ↔ Recorded front issue ∨ Recorded back issue := by
  simp only [Recorded, List.mem_append, or_and_right, exists_or]

/-- What is added to a log is on record afterwards, and nothing else is. -/
theorem recorded_appendIssues {log issues : List Issue} {issue : Issue} :
    Recorded (appendIssues log issues).2 issue ↔ Recorded log issue ∨ Recorded issues issue := by
  induction issues generalizing log with
  | nil => simp [appendIssues, Recorded]
  | cons i rest ih =>
    rw [← List.singleton_append, recorded_append, List.singleton_append]
    by_cases known : Recorded log i
    · rw [appendIssues, if_pos known, ih]
      have redundant : Recorded [i] issue → Recorded log issue := fun ⟨j, hj, hc⟩ =>
        known.congr (List.mem_singleton.mp hj ▸ hc)
      exact ⟨fun h => h.imp id .inr, fun h => h.elim .inl fun h => h.imp redundant id⟩
    · rw [appendIssues, if_neg known, ih, recorded_append, or_assoc]

theorem mem_appendIssues_of_mem {log issues : List Issue} {i : Issue} (h : i ∈ log) :
    i ∈ (appendIssues log issues).2 := by
  induction issues generalizing log with
  | nil => exact h
  | cons issue rest ih =>
    rw [appendIssues]
    split
    case isTrue => exact ih h
    case isFalse => exact ih (List.mem_append_left [issue] h)

/-- A log gets no issues but those added. -/
theorem of_mem_appendIssues {log issues : List Issue} {i : Issue}
    (h : i ∈ (appendIssues log issues).2) : i ∈ log ∨ i ∈ issues := by
  induction issues generalizing log with
  | nil => exact .inl h
  | cons issue rest ih =>
    rw [appendIssues] at h
    split at h
    case isTrue => exact (ih h).imp id (List.mem_cons_of_mem issue)
    case isFalse =>
      rcases ih h with h | h
      · rcases List.mem_append.mp h with h | h
        · exact .inl h
        · exact .inr (List.mem_singleton.mp h ▸ List.mem_cons_self)
      · exact .inr (List.mem_cons_of_mem issue h)

/-- An issue that no other one among those added has the checksum of is added just where it is not
on record. -/
theorem mem_appendIssues_iff {log issues : List Issue} {i : Issue}
    (alone : i ∈ issues → ∀ j ∈ issues, j.checksum = i.checksum → j = i) :
    i ∈ (appendIssues log issues).2 ↔ i ∈ log ∨ (i ∈ issues ∧ ¬ Recorded log i) := by
  induction issues generalizing log with
  | nil => simp [appendIssues]
  | cons issue rest ih =>
    have behind : i ∈ rest → ∀ j ∈ rest, j.checksum = i.checksum → j = i := fun hi j hj =>
      alone (List.mem_cons_of_mem issue hi) j (List.mem_cons_of_mem issue hj)
    rw [appendIssues]
    by_cases known : Recorded log issue
    · rw [if_pos known, ih behind, List.mem_cons]
      refine or_congr_right (and_congr_left fun new => ?_)
      exact (or_iff_right (by rintro rfl; exact new known)).symm
    · rw [if_neg known]
      dsimp only
      rw [ih behind, List.mem_append, List.mem_singleton, List.mem_cons, recorded_append]
      by_cases here : i = issue
      · subst here
        simp [known]
      · have apart : i ∈ rest → ¬ Recorded [issue] i := fun hi ⟨j, hj, same⟩ => by
          obtain rfl := List.mem_singleton.mp hj
          exact here (alone (List.mem_cons_of_mem j hi) j List.mem_cons_self same).symm
        simp only [here, or_false, false_or, not_or]
        exact or_congr_right (and_congr_right fun hi => and_iff_left (apart hi))

/-- A log grows by the count of issues added. -/
theorem length_appendIssues (log issues : List Issue) :
    (appendIssues log issues).2.length = log.length + (appendIssues log issues).1 := by
  induction issues generalizing log with
  | nil => rfl
  | cons i rest ih =>
    by_cases known : Recorded log i
    · rw [appendIssues, if_pos known, ih]
    · rw [appendIssues, if_neg known]
      dsimp only
      rw [ih, List.length_append, List.length_singleton, Nat.add_right_comm, Nat.add_assoc]

/-- Nothing is added where all is on record. -/
theorem appendIssues_of_recorded {log issues : List Issue} (h : ∀ i ∈ issues, Recorded log i) :
    appendIssues log issues = (0, log) := by
  induction issues with
  | nil => rfl
  | cons i rest ih =>
    rw [appendIssues, if_pos (h i List.mem_cons_self)]
    exact ih fun j hj => h j (List.mem_cons_of_mem i hj)

/-- The count of issues added is zero just where all are on record. -/
theorem appendIssues_eq_zero_iff {log issues : List Issue} :
    (appendIssues log issues).1 = 0 ↔ ∀ i ∈ issues, Recorded log i := by
  refine ⟨fun h => ?_, fun h => by rw [appendIssues_of_recorded h]⟩
  induction issues with
  | nil => exact fun _ hi => nomatch hi
  | cons i rest ih =>
    by_cases known : Recorded log i
    · rw [appendIssues, if_pos known] at h
      exact List.forall_mem_cons.mpr ⟨known, ih h⟩
    · rw [appendIssues, if_neg known] at h
      exact absurd h (Nat.succ_ne_zero _)

end ChainIndex
