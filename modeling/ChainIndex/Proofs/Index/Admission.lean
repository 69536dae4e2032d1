import Mathlib.Data.List.Nodup
import Mathlib.Logic.Function.Basic
import Mathlib.Logic.Relation
import ChainIndex.Crawler.Turn

/-!
# One index run at a time

Orders to index come, the indexer is scaled and runs end, and these steps come in any order.  A run
that has ended still has to answer its order, and to stop the crawler where the store failed.  By
then the indexer lets the next one in, so any number of runs may be on their way out while one is
active.  A run that breaks off is not among those that end here: it has no result to answer with.

An order is named by how many came before it, and so is the run that it starts.  The invariant is
`Orderly`: what became of an order is told by the stage of its run alone.
-/

namespace ChainIndex

/-! ## Runs and orders -/

/-- Where the run of an order stands. -/
inductive RunStage where
  /-- There is none. -/
  | absent
  /-- It is at work. -/
  | active
  /-- It has ended, and others are let in. -/
  | ended (result : Except CrawlFault BatchReport)
  /-- It has answered its order, and will ask the bus to exit. -/
  | stopping (result : Except CrawlFault BatchReport)
  /-- It has nothing left to do. -/
  | closed (result : Except CrawlFault BatchReport)

namespace RunStage

/-- A run is at work. -/
def isActive : RunStage → Bool
  | active => true
  | _ => false

/-- There is a run. -/
def isStarted : RunStage → Bool
  | absent => false
  | _ => true

/-- What the run has come to, once it has ended. -/
def result? : RunStage → Option (Except CrawlFault BatchReport)
  | ended result | stopping result | closed result => some result
  | _ => none

/-- What it has answered. -/
def replies : RunStage → List Reply
  | stopping result | closed result => [IndexPhase.reply result]
  | _ => []

/-- It has asked the bus to exit. -/
def asked : RunStage → Bool
  | closed result => IndexPhase.stopsCrawler result
  | _ => false

/-- The stage of a run that has answered. -/
def answered (result : Except CrawlFault BatchReport) : RunStage :=
  if IndexPhase.stopsCrawler result then stopping result else closed result

@[simp] theorem isActive_answered (result : Except CrawlFault BatchReport) :
    (answered result).isActive = false := by
  rw [answered]
  split <;> rfl

@[simp] theorem replies_answered (result : Except CrawlFault BatchReport) :
    (answered result).replies = [IndexPhase.reply result] := by
  rw [answered]
  split <;> rfl

@[simp] theorem asked_answered (result : Except CrawlFault BatchReport) :
    (answered result).asked = false := by
  rw [answered]
  split
  case isTrue => rfl
  case isFalse goesOn => simpa [asked] using goesOn

@[simp] theorem result?_answered (result : Except CrawlFault BatchReport) :
    (answered result).result? = some result := by
  rw [answered]
  split <;> rfl

@[simp] theorem isStarted_answered (result : Except CrawlFault BatchReport) :
    (answered result).isStarted = true := by
  rw [answered]
  split <;> rfl

end RunStage

/-- What an order found when it came. -/
structure Arrival where
  /-- The workers of the indexer. -/
  workers : UInt16
  /-- The runs that were at work. -/
  active : List Nat

namespace Arrival

/-- Why an order is declined, if it is. -/
def refusal? (a : Arrival) : Option String :=
  if a.workers = 0 then some (Indexer.serviceName ++ " has no workers")
  else if a.active ≠ [] then some "index is already running"
  else none

theorem refusal?_isSome {a : Arrival} : a.refusal?.isSome ↔ a.workers = 0 ∨ a.active ≠ [] := by
  rw [refusal?]
  split
  case isTrue none => simp [none]
  case isFalse some => split <;> simp_all

end Arrival

/-! ## Steps -/

/-- An indexer between two steps, and what happened to its orders. -/
structure IndexerRun (R : Type) where
  indexer : Indexer R := {}
  /-- What the orders found, in the order in which they came. -/
  arrivals : List Arrival := []
  /-- The runs that were started, in order. -/
  started : List Nat := []
  /-- Where the run of each order stands. -/
  stage : Nat → RunStage := fun _ => .absent
  /-- The replies to orders, in order. -/
  replies : List (Nat × Reply) := []
  /-- The runs that asked the bus to exit, in order. -/
  exits : List Nat := []

namespace IndexerRun

variable {R : Type}

/-- The runs at work. -/
def active (s : IndexerRun R) : List Nat := s.started.filter fun n => (s.stage n).isActive

/-- What an order finds that comes now. -/
def arrival (s : IndexerRun R) : Arrival := ⟨s.indexer.workers, s.active⟩

/-- What an order was answered. -/
def repliesTo (s : IndexerRun R) (n : Nat) : List Reply :=
  (s.replies.filter fun r => r.1 = n).map (·.2)

/-- A run gets on. -/
def reaches (s : IndexerRun R) (n : Nat) (stage : RunStage) : IndexerRun R :=
  { s with stage := Function.update s.stage n stage }

end IndexerRun

variable {R : Type}

/-- A step of the run of an order towards its end. -/
inductive RunStep (n : Nat) (s : IndexerRun R) : IndexerRun R → Prop
  /-- It ends in some way, and the next one may be let in. -/
  | finish (on : s.stage n = .active) (result : Except CrawlFault BatchReport) :
      RunStep n s { s.reaches n (.ended result) with indexer := s.indexer.finish }
  /-- It answers its order. -/
  | answer {result : Except CrawlFault BatchReport} (on : s.stage n = .ended result) :
      RunStep n s { s.reaches n (.answered result) with
        replies := s.replies ++ [(n, IndexPhase.reply result)] }
  /-- The store failed it, and it asks the bus to exit. -/
  | exit {result : Except CrawlFault BatchReport} (on : s.stage n = .stopping result) :
      RunStep n s { s.reaches n (.closed result) with exits := s.exits ++ [n] }

/-- A step of those who order and scale, or of a run. -/
inductive IndexerStep (s : IndexerRun R) : IndexerRun R → Prop
  /-- An order comes, and its run is let in. -/
  | accept (run : R) {indexer : Indexer R} (accepted : s.indexer.accept run = .ok indexer) :
      IndexerStep s { s.reaches s.arrivals.length .active with
        indexer := indexer
        arrivals := s.arrivals ++ [s.arrival]
        started := s.started ++ [s.arrivals.length] }
  /-- An order comes and is declined. -/
  | decline (run : R) {reason : String} (declined : s.indexer.accept run = .error reason) :
      IndexerStep s { s with
        arrivals := s.arrivals ++ [s.arrival]
        replies := s.replies ++ [(s.arrivals.length, .rejected reason)] }
  /-- The indexer is scaled. -/
  | scale (count : UInt16) :
      IndexerStep s { s with indexer := { s.indexer with workers := count } }
  /-- The active run goes on. -/
  | goOn (run : R) (active : s.indexer.isActive) :
      IndexerStep s { s with indexer := { s.indexer with run := some run } }
  /-- A run ends, answers or asks for the exit. -/
  | run {n : Nat} {t : IndexerRun R} (step : RunStep n s t) : IndexerStep s t

/-- What an indexer without workers becomes. -/
inductive IndexerReachable : IndexerRun R → Prop
  | start : IndexerReachable {}
  | step {s t : IndexerRun R} (reached : IndexerReachable s) (step : IndexerStep s t) :
      IndexerReachable t

/-! ## The invariant -/

/-- What happened to an order is told by what it found, if it has come, and by where its run
stands. -/
structure Told (s : IndexerRun R) (n : Nat) : Prop where
  started : s.started.count n = (s.stage n).isStarted.toNat
  admitted : (s.stage n).isStarted = s.arrivals[n]?.any (·.refusal?.isNone)
  replies : s.repliesTo n =
    (s.arrivals[n]?.bind Arrival.refusal?).toList.map .rejected ++ (s.stage n).replies
  exits : s.exits.count n = (s.stage n).asked.toNat

/-- The gate is shut while a run is at work, every order is told, and only a fault of the store
keeps a run that has answered. -/
structure Orderly (s : IndexerRun R) : Prop where
  gate : s.active.length = s.indexer.isActive.toNat
  told : ∀ n, Told s n
  stops : ∀ n result, s.stage n = .stopping result → IndexPhase.stopsCrawler result = true

variable {s t : IndexerRun R} {n : Nat}

namespace IndexerRun

theorem repliesTo_concat (s : IndexerRun R) (n : Nat) (reply : Reply) (m : Nat) :
    { s with replies := s.replies ++ [(n, reply)] }.repliesTo m =
      s.repliesTo m ++ if n = m then [reply] else [] := by
  rw [repliesTo, List.filter_append, List.map_append]
  by_cases same : n = m
  · simp [repliesTo, same]
  · simp [repliesTo, same]

/-- A run that gets on without starting or ending leaves the runs at work alone. -/
theorem active_reaches {stage : RunStage} (same : stage.isActive = (s.stage n).isActive) :
    (s.reaches n stage).active = s.active := by
  refine List.filter_congr fun m _ => ?_
  by_cases here : m = n
  · subst here
    simp [reaches, same]
  · simp [reaches, here]

end IndexerRun

theorem getElem?_concat_ne {α : Type} {l : List α} {a : α} (other : n ≠ l.length) :
    (l ++ [a])[n]? = l[n]? := by
  rcases Nat.lt_or_gt_of_ne other with before | behind
  · exact List.getElem?_append_left before
  · have past : (l ++ [a]).length ≤ n := by
      rw [List.length_append]
      exact behind
    rw [List.getElem?_eq_none past, List.getElem?_eq_none (Nat.le_of_lt behind)]

namespace Told

theorem congr (h : Told s n) (started : t.started.count n = s.started.count n)
    (stage : t.stage n = s.stage n) (arrivals : t.arrivals[n]? = s.arrivals[n]?)
    (replies : t.repliesTo n = s.repliesTo n) (exits : t.exits.count n = s.exits.count n) :
    Told t n where
  started := by rw [started, stage, h.started]
  admitted := by rw [stage, arrivals, h.admitted]
  replies := by rw [replies, arrivals, stage, h.replies]
  exits := by rw [exits, stage, h.exits]

/-- Nothing happened to an order that has not come. -/
theorem ahead (h : Told s n) (ahead : s.arrivals[n]? = none) : s.stage n = .absent ∧
    s.started.count n = 0 ∧ s.repliesTo n = [] ∧ s.exits.count n = 0 := by
  have absent : s.stage n = .absent := by
    have admitted := h.admitted
    rw [ahead] at admitted
    cases stage : s.stage n with
    | absent => rfl
    | _ =>
      rw [stage] at admitted
      cases admitted
  refine ⟨absent, ?_, ?_, ?_⟩
  · rw [h.started, absent]
    rfl
  · rw [h.replies, absent, ahead]
    rfl
  · rw [h.exits, absent]
    rfl

/-- An order that is declined starts no run, and is told why. -/
theorem refused (h : Told s n) {a : Arrival} (came : s.arrivals[n]? = some a) {reason : String}
    (refused : a.refusal? = some reason) :
    s.started.count n = 0 ∧ s.repliesTo n = [.rejected reason] := by
  have admitted := h.admitted
  rw [came, Option.any_some, refused] at admitted
  have absent : s.stage n = .absent := by
    cases stage : s.stage n with
    | absent => rfl
    | _ =>
      rw [stage] at admitted
      cases admitted
  refine ⟨?_, ?_⟩
  · rw [h.started, absent]
    rfl
  · rw [h.replies, absent, came, Option.bind_some, refused]
    rfl

/-- An order that is let in starts one run, and is told what the run has to say. -/
theorem letIn (h : Told s n) {a : Arrival} (came : s.arrivals[n]? = some a)
    (letIn : a.refusal? = none) :
    s.started.count n = 1 ∧ s.stage n ≠ .absent ∧ s.repliesTo n = (s.stage n).replies := by
  have started : (s.stage n).isStarted = true := by
    rw [h.admitted, came, Option.any_some, letIn]
    rfl
  refine ⟨?_, ?_, ?_⟩
  · rw [h.started, started]
    rfl
  · intro absent
    rw [absent] at started
    cases started
  · rw [h.replies, came, Option.bind_some, letIn]
    rfl

/-- A run gets on, and gives some replies and asks for some exits on the way. -/
theorem reaches {stage : RunStage} (h : ∀ m, Told s m) (new : List Reply) (more : Nat)
    (moved : t.stage = Function.update s.stage n stage) (started : t.started = s.started)
    (arrivals : t.arrivals = s.arrivals) (goesOn : stage.isStarted = (s.stage n).isStarted)
    (replies : ∀ m, t.repliesTo m = s.repliesTo m ++ if n = m then new else [])
    (said : stage.replies = (s.stage n).replies ++ new)
    (exits : ∀ m, t.exits.count m = s.exits.count m + if n = m then more else 0)
    (asked : stage.asked.toNat = (s.stage n).asked.toNat + more) (m : Nat) : Told t m := by
  by_cases here : n = m
  · subst here
    have same : t.stage n = stage := by rw [moved, Function.update_self]
    refine ⟨?_, ?_, ?_, ?_⟩
    · rw [started, same, goesOn, (h n).started]
    · rw [arrivals, same, goesOn, (h n).admitted]
    · rw [replies, arrivals, same, said, (h n).replies, if_pos rfl, List.append_assoc]
    · rw [exits, same, asked, (h n).exits, if_pos rfl]
  · refine (h m).congr ?_ ?_ ?_ ?_ ?_
    · rw [started]
    · rw [moved, Function.update_of_ne (Ne.symm here)]
    · rw [arrivals]
    · rw [replies, if_neg here, List.append_nil]
    · rw [exits, if_neg here, Nat.add_zero]

end Told

namespace Orderly

/-- What the indexer says to an order is what the order finds. -/
theorem accept_eq (h : Orderly s) (run : R) :
    s.indexer.accept run =
      match s.arrival.refusal? with
      | some reason => .error reason
      | none => .ok { s.indexer with run := some run } := by
  have gate := h.gate
  rw [Indexer.accept, Arrival.refusal?, IndexerRun.arrival]
  by_cases none : s.indexer.workers = 0
  · simp [none]
  · cases busy : s.indexer.isActive with
    | true =>
      have there : s.active ≠ [] := by
        rw [busy] at gate
        exact List.ne_nil_of_length_eq_add_one gate
      simp [none, there]
    | false =>
      have free : s.active = [] := by
        rw [busy] at gate
        exact List.eq_nil_of_length_eq_zero gate
      simp [none, free]

theorem start : Orderly ({} : IndexerRun R) where
  gate := rfl
  told _ := ⟨rfl, rfl, rfl, rfl⟩
  stops _ _ stopping := by cases stopping

/-- A run that gets on keeps to what it stops for, where its new stage does. -/
theorem stops_reaches (h : Orderly s) (n : Nat) {stage : RunStage}
    (new : ∀ result, stage = .stopping result → IndexPhase.stopsCrawler result = true) :
    ∀ m result, (s.reaches n stage).stage m = .stopping result →
      IndexPhase.stopsCrawler result = true := by
  intro m result stopping
  by_cases here : m = n
  · subst here
    simp only [IndexerRun.reaches, Function.update_self] at stopping
    exact new result stopping
  · simp only [IndexerRun.reaches, Function.update_of_ne here] at stopping
    exact h.stops m result stopping

theorem accept (h : Orderly s) {run : R} {indexer : Indexer R}
    (accepted : s.indexer.accept run = .ok indexer) :
    Orderly { s.reaches s.arrivals.length .active with
      indexer := indexer
      arrivals := s.arrivals ++ [s.arrival]
      started := s.started ++ [s.arrivals.length] } := by
  rw [h.accept_eq] at accepted
  cases refused : s.arrival.refusal? with
  | some reason =>
    rw [refused] at accepted
    cases accepted
  | none =>
    rw [refused] at accepted
    cases accepted
    obtain ⟨absent, unstarted, silent, staying⟩ := (h.told _).ahead (List.getElem?_eq_none (Nat.le_refl _))
    have free : s.active = [] := by
      by_contra busy
      have refusal := Arrival.refusal?_isSome.mpr (.inr busy : s.arrival.workers = 0 ∨ _)
      simp [refused] at refusal
    have before : (s.reaches s.arrivals.length .active).active = s.active := by
      refine List.filter_congr fun m there => ?_
      have other : m ≠ s.arrivals.length := by
        rintro rfl
        exact List.count_eq_zero.mp unstarted there
      simp [IndexerRun.reaches, other]
    refine ⟨?_, fun n => ?_, h.stops_reaches _ (fun _ stopping => by cases stopping)⟩
    · have now : ((s.started ++ [s.arrivals.length]).filter fun n =>
          ((s.reaches s.arrivals.length .active).stage n).isActive) = [s.arrivals.length] := by
        rw [List.filter_append, show List.filter _ s.started = [] from before.trans free]
        simp [IndexerRun.reaches, RunStage.isActive]
      exact congrArg List.length now
    · by_cases here : n = s.arrivals.length
      · subst here
        refine ⟨?_, ?_, ?_, ?_⟩
        · simp [IndexerRun.reaches, RunStage.isStarted, unstarted]
        · simp [IndexerRun.reaches, RunStage.isStarted, refused]
        · refine Eq.trans silent ?_
          simp [IndexerRun.reaches, RunStage.replies, refused]
        · simpa [IndexerRun.reaches, RunStage.asked] using staying
      · refine (h.told n).congr ?_ ?_ (getElem?_concat_ne here) rfl rfl
        · simp [Ne.symm here]
        · simp [IndexerRun.reaches, here]

theorem decline (h : Orderly s) {run : R} {reason : String}
    (declined : s.indexer.accept run = .error reason) :
    Orderly { s with
      arrivals := s.arrivals ++ [s.arrival]
      replies := s.replies ++ [(s.arrivals.length, .rejected reason)] } := by
  rw [h.accept_eq] at declined
  cases refused : s.arrival.refusal? with
  | none =>
    rw [refused] at declined
    cases declined
  | some _ =>
    rw [refused] at declined
    cases declined
    refine ⟨h.gate, fun n => ?_, h.stops⟩
    have replies := s.repliesTo_concat s.arrivals.length (.rejected reason) n
    by_cases here : n = s.arrivals.length
    · subst here
      obtain ⟨absent, unstarted, silent, staying⟩ := (h.told _).ahead (List.getElem?_eq_none (Nat.le_refl _))
      refine ⟨?_, ?_, ?_, ?_⟩
      · simp [absent, RunStage.isStarted, unstarted]
      · simp [absent, RunStage.isStarted, refused]
      · refine replies.trans ?_
        simp [absent, RunStage.replies, refused, silent]
      · simp [absent, RunStage.asked, staying]
    · refine (h.told n).congr rfl rfl (getElem?_concat_ne here) ?_ rfl
      refine replies.trans ?_
      rw [if_neg (Ne.symm here), List.append_nil]

/-- The gate opens when the active run ends. -/
theorem finish (h : Orderly s) (on : s.stage n = .active) (result : Except CrawlFault BatchReport) :
    Orderly { s.reaches n (.ended result) with indexer := s.indexer.finish } := by
  have started : n ∈ s.started := by
    rw [← List.count_pos_iff, (h.told n).started, on]
    exact Nat.zero_lt_one
  refine ⟨?_, Told.reaches h.told [] 0 rfl rfl rfl ?_ (fun _ => ?_) ?_ (fun _ => ?_) ?_,
    h.stops_reaches n fun _ stopping => by cases stopping⟩
  · -- at most one run was at work, and this was one
    have there : n ∈ s.active := List.mem_filter.mpr ⟨started, by rw [on]; rfl⟩
    have only : s.active = [n] := by
      have gate := h.gate
      have most := Bool.toNat_le s.indexer.isActive
      match actives : s.active with
      | [] => simp [actives] at there
      | [m] =>
        rw [actives] at there
        rw [List.mem_singleton.mp there]
      | _ :: _ :: _ =>
        rw [actives] at gate
        simp only [List.length_cons] at gate
        omega
    have none_left : (s.reaches n (.ended result)).active = [] := by
      refine List.filter_eq_nil_iff.mpr fun m hm active => ?_
      by_cases here : m = n
      · simp [IndexerRun.reaches, here, RunStage.isActive] at active
      · simp only [IndexerRun.reaches, Function.update_of_ne here] at active
        have also : m ∈ s.active := List.mem_filter.mpr ⟨hm, active⟩
        rw [only] at also
        exact here (List.mem_singleton.mp also)
    exact congrArg List.length none_left
  · rw [on]
    rfl
  · rw [ite_self, List.append_nil]
    rfl
  · rw [on]
    rfl
  · rw [ite_self]
    rfl
  · rw [on]
    rfl

theorem answer (h : Orderly s) {result : Except CrawlFault BatchReport}
    (on : s.stage n = .ended result) :
    Orderly { s.reaches n (.answered result) with
      replies := s.replies ++ [(n, IndexPhase.reply result)] } := by
  refine ⟨?_, Told.reaches h.told [IndexPhase.reply result] 0 rfl rfl rfl ?_
    (s.repliesTo_concat n _) ?_ (fun _ => ?_) ?_, h.stops_reaches n ?_⟩
  · have same : (s.reaches n (.answered result)).active = s.active :=
      IndexerRun.active_reaches (by rw [on, RunStage.isActive_answered]; rfl)
    exact (congrArg List.length same).trans h.gate
  · rw [on, RunStage.isStarted_answered]
    rfl
  · rw [on, RunStage.replies_answered]
    rfl
  · rw [ite_self]
    rfl
  · rw [on, RunStage.asked_answered]
    rfl
  · intro told stopping
    rw [RunStage.answered] at stopping
    split at stopping
    case isTrue fails =>
      cases stopping
      exact fails
    case isFalse => cases stopping

theorem exit (h : Orderly s) {result : Except CrawlFault BatchReport}
    (on : s.stage n = .stopping result) :
    Orderly { s.reaches n (.closed result) with exits := s.exits ++ [n] } := by
  refine ⟨?_, Told.reaches h.told [] 1 rfl rfl rfl ?_ (fun _ => ?_) ?_ (fun m => ?_) ?_,
    h.stops_reaches n fun _ stopping => by cases stopping⟩
  · have same : (s.reaches n (.closed result)).active = s.active :=
      IndexerRun.active_reaches (by rw [on]; rfl)
    exact (congrArg List.length same).trans h.gate
  · rw [on]
    rfl
  · rw [ite_self, List.append_nil]
    rfl
  · rw [on]
    rfl
  · show (s.exits ++ [n]).count m = _
    rw [List.count_append, List.count_singleton]
    simp
  · rw [on, RunStage.asked, h.stops n result on]
    rfl

theorem run (h : Orderly s) (step : RunStep n s t) : Orderly t := by
  cases step with
  | finish on result => exact h.finish on result
  | answer on => exact h.answer on
  | exit on => exact h.exit on

theorem step (h : Orderly s) (step : IndexerStep s t) : Orderly t := by
  cases step with
  | accept run accepted => exact h.accept accepted
  | decline run declined => exact h.decline declined
  | scale count => exact ⟨h.gate, fun n => (h.told n).congr rfl rfl rfl rfl rfl, h.stops⟩
  | goOn run active =>
    refine ⟨h.gate.trans ?_, fun n => (h.told n).congr rfl rfl rfl rfl rfl, h.stops⟩
    rw [active]
    rfl
  | run step => exact h.run step

end Orderly

theorem IndexerReachable.orderly (reached : IndexerReachable s) : Orderly s := by
  induction reached with
  | start => exact Orderly.start
  | step _ step ih => exact ih.step step

/-! ## What a run comes to -/

/-- A run keeps what it has come to, whatever others do. -/
theorem IndexerStep.result_stays (h : Orderly s) (step : IndexerStep s t)
    {result : Except CrawlFault BatchReport} (ended : (s.stage n).result? = some result) :
    (t.stage n).result? = some result := by
  have stays {m : Nat} {stage : RunStage} (same : n = m → stage.result? = some result) :
      ((s.reaches m stage).stage n).result? = some result := by
    by_cases here : n = m
    · subst here
      simpa only [IndexerRun.reaches, Function.update_self] using same rfl
    · simpa only [IndexerRun.reaches, Function.update_of_ne here] using ended
  cases step with
  | accept run accepted =>
    refine stays fun here => ?_
    subst here
    rw [((h.told _).ahead (List.getElem?_eq_none (Nat.le_refl _))).1] at ended
    cases ended
  | decline run declined => exact ended
  | scale count => exact ended
  | goOn run active => exact ended
  | run step =>
    cases step with
    | finish on _ =>
      refine stays fun here => ?_
      subst here
      rw [on] at ended
      cases ended
    | answer on =>
      refine stays fun here => ?_
      subst here
      rw [on] at ended
      rw [RunStage.result?_answered]
      exact ended
    | exit on =>
      refine stays fun here => ?_
      subst here
      rw [on] at ended
      exact ended

/-- A run that has ended gets to where nothing is left to do by its own steps. -/
theorem IndexerRun.completes {result : Except CrawlFault BatchReport}
    (ended : (s.stage n).result? = some result) :
    ∃ t, Relation.ReflTransGen (RunStep n) s t ∧ t.stage n = .closed result := by
  have stopping {s : IndexerRun R} (on : s.stage n = .stopping result) :
      ∃ t, Relation.ReflTransGen (RunStep n) s t ∧ t.stage n = .closed result :=
    ⟨_, .single (.exit on), Function.update_self ..⟩
  cases on : s.stage n with
  | absent | active =>
    rw [on] at ended
    cases ended
  | ended told =>
    rw [on] at ended
    cases ended
    have answer := RunStep.answer on
    cases stops : IndexPhase.stopsCrawler result with
    | true =>
      obtain ⟨t, steps, closed⟩ := stopping (s := { s.reaches n (.answered result) with
        replies := s.replies ++ [(n, IndexPhase.reply result)] }) (by
          simp [IndexerRun.reaches, RunStage.answered, stops])
      exact ⟨t, .head answer steps, closed⟩
    | false =>
      refine ⟨_, .single answer, ?_⟩
      simp [IndexerRun.reaches, RunStage.answered, stops]
  | stopping told =>
    rw [on] at ended
    cases ended
    exact stopping on
  | closed told =>
    rw [on] at ended
    cases ended
    exact ⟨s, .refl, on⟩

/-- There is an order behind every run. -/
theorem Orderly.came (h : Orderly s) (there : s.stage n ≠ .absent) :
    ∃ a, s.arrivals[n]? = some a ∧ a.refusal? = none := by
  cases came : s.arrivals[n]? with
  | none => exact absurd ((h.told n).ahead came).1 there
  | some a =>
    cases refused : a.refusal? with
    | none => exact ⟨a, rfl, refused⟩
    | some reason =>
      have none_started := ((h.told n).refused came refused).1
      rw [(h.told n).started] at none_started
      cases stage : s.stage n with
      | absent => exact absurd stage there
      | _ =>
        rw [stage] at none_started
        cases none_started

/-- What an order gets once its run has nothing left to do. -/
theorem Orderly.closed (h : Orderly s) {result : Except CrawlFault BatchReport}
    (closed : s.stage n = .closed result) :
    s.repliesTo n = [IndexPhase.reply result] ∧
      s.exits.count n = if IndexPhase.stopsCrawler result then 1 else 0 := by
  have there : s.stage n ≠ .absent := by
    rw [closed]
    exact RunStage.noConfusion
  obtain ⟨a, came, letIn⟩ := h.came there
  constructor
  · rw [((h.told n).letIn came letIn).2.2, closed]
    rfl
  · rw [(h.told n).exits, closed, RunStage.asked]
    cases IndexPhase.stopsCrawler result <;> rfl

/-- No run answers that its order is rejected. -/
theorem RunStage.rejected_notMem_replies (stage : RunStage) (reason : String) :
    Reply.rejected reason ∉ stage.replies := by
  have told (result : Except CrawlFault BatchReport) :
      Reply.rejected reason ∉ [IndexPhase.reply result] := by
    intro said
    have said := List.mem_singleton.mp said
    cases result <;> cases said
  cases stage with
  | absent | active | ended _ => exact List.not_mem_nil
  | stopping result | closed result => exact told result

/-- Index runs never overlap, and the gate knows when one is at work.  An order is rejected exactly
when it finds no workers or a run at work, and then starts none and is told nothing else.  Any other
order starts one run.  Once the run has ended, its result stays, and its own steps lead to where the
order has got one reply, which tells the result, and the bus was asked to exit, once, exactly where
the store failed. -/
theorem index_orders_answered_once {s : IndexerRun R} (reached : IndexerReachable s) :
    (s.active.length ≤ 1 ∧ (s.indexer.isActive ↔ s.active ≠ [])) ∧
      (∀ n, s.arrivals[n]? = none → n ∉ s.started ∧ s.repliesTo n = []) ∧
      (∀ n a, s.arrivals[n]? = some a →
        ((∃ reason, .rejected reason ∈ s.repliesTo n) ↔ a.workers = 0 ∨ a.active ≠ []) ∧
        if a.workers = 0 ∨ a.active ≠ [] then
          n ∉ s.started ∧ ∃ reason, s.repliesTo n = [.rejected reason]
        else
          s.started.count n = 1 ∧
            (s.stage n = .active ∧ s.repliesTo n = [] ∨
              ∃ result, (s.stage n).result? = some result)) ∧
      (∀ n result, (s.stage n).result? = some result →
        (∀ t, IndexerStep s t → (t.stage n).result? = some result) ∧
        (s.repliesTo n = [] ∨ s.repliesTo n = [IndexPhase.reply result]) ∧
        ∃ t, Relation.ReflTransGen (RunStep n) s t ∧ t.stage n = .closed result) ∧
      (∀ n report, s.stage n = .closed (.ok report) →
        s.repliesTo n = [.indexed report] ∧ n ∉ s.exits) ∧
      (∀ n fault, s.stage n = .closed (.error fault) →
        s.repliesTo n = [.failed fault.message] ∧
        s.exits.count n = if fault.isStorage then 1 else 0) ∧
      ∀ n ∈ s.exits, ∃ fault, s.stage n = .closed (.error fault) ∧ fault.isStorage := by
  have h := reached.orderly
  refine ⟨⟨?_, ?_⟩, fun n ahead => ?_, fun n a came => ?_, fun n result ended => ?_,
    fun n report closed => ?_, fun n fault closed => (h.closed closed), fun n asked => ?_⟩
  · rw [h.gate]
    exact Bool.toNat_le _
  · rw [← List.length_pos_iff, h.gate]
    cases s.indexer.isActive <;> decide
  · obtain ⟨_, unstarted, silent, _⟩ := (h.told n).ahead ahead
    exact ⟨List.count_eq_zero.mp unstarted, silent⟩
  · have told := h.told n
    cases refused : a.refusal? with
    | some reason =>
      have shut : a.workers = 0 ∨ a.active ≠ [] := by
        rw [← Arrival.refusal?_isSome, refused]
        rfl
      obtain ⟨unstarted, said⟩ := told.refused came refused
      rw [if_pos shut]
      refine ⟨iff_of_true ⟨reason, ?_⟩ shut, List.count_eq_zero.mp unstarted, reason, said⟩
      rw [said]
      exact List.mem_singleton_self _
    | none =>
      have shut : ¬(a.workers = 0 ∨ a.active ≠ []) := by
        rw [← Arrival.refusal?_isSome, refused]
        exact Bool.false_ne_true
      obtain ⟨once, there, said⟩ := told.letIn came refused
      rw [if_neg shut]
      refine ⟨iff_of_false ?_ shut, once, ?_⟩
      · rintro ⟨reason, rejected⟩
        rw [said] at rejected
        exact (s.stage n).rejected_notMem_replies reason rejected
      · cases on : s.stage n with
        | absent => exact absurd on there
        | active =>
          rw [on] at said
          exact .inl ⟨rfl, said⟩
        | ended result | stopping result | closed result => exact .inr ⟨result, rfl⟩
  · refine ⟨fun t step => step.result_stays h ended, ?_, IndexerRun.completes ended⟩
    have there : s.stage n ≠ .absent := by
      intro absent
      rw [absent] at ended
      cases ended
    obtain ⟨a, came, letIn⟩ := h.came there
    rw [((h.told n).letIn came letIn).2.2]
    cases on : s.stage n with
    | absent | active => exact .inl rfl
    | ended told => exact .inl rfl
    | stopping told | closed told =>
      rw [on] at ended
      cases ended
      exact .inr rfl
  · obtain ⟨replies, exits⟩ := h.closed closed
    exact ⟨replies, List.count_eq_zero.mp exits⟩
  · have once := List.count_pos_iff.mpr asked
    rw [(h.told n).exits] at once
    cases on : s.stage n with
    | closed result =>
      rw [on, RunStage.asked] at once
      cases result with
      | ok report => cases once
      | error fault =>
        refine ⟨fault, rfl, ?_⟩
        by_contra other
        rw [IndexPhase.stopsCrawler, Bool.eq_false_iff.mpr other] at once
        cases once
    | _ =>
      rw [on] at once
      cases once

/-- While a run that the store failed still has to answer, a new one is let in. -/
theorem index_orders_answered_once_of_late_answer :
    ∃ s : IndexerRun Unit, IndexerReachable s ∧ s.active = [2] ∧ s.started.count 2 = 1 ∧
      s.repliesTo 1 = [.rejected "index is already running"] ∧ s.repliesTo 0 = [] ∧
      ∃ t, Relation.ReflTransGen (RunStep 0) s t ∧
        t.stage 0 = .closed (.error (.storage "disk full")) := by
  have scaled := (IndexerReachable.start (R := Unit)).step (.scale 1)
  have first := scaled.step (.accept () rfl)
  have second := first.step (.decline () rfl)
  have ended := second.step (.run (.finish (n := 0) rfl (.error (.storage "disk full"))))
  have third := ended.step (.accept () rfl)
  obtain ⟨_, _, arrived, result, _⟩ := index_orders_answered_once third
  have let_in := (arrived 2 _ rfl).2
  exact ⟨_, third, rfl, let_in.1, rfl, rfl, (result 0 _ rfl).2.2⟩

end ChainIndex
