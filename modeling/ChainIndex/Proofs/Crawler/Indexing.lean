import ChainIndex.Proofs.Crawler.HeldUp
import ChainIndex.Proofs.Index.Admission

/-!
# The indexer of a crawler

An order to the indexer is a step of those who order, and the end of a run is the last steps of the
run, up to the request to exit.  What else a crawler does leaves the indexer alone, or scales it, or
lets its run go on.  So the indexer of a crawler is one that such steps lead to.

A run that breaks off leaves the indexer as a run that ends does, and then answers nothing.
-/

namespace ChainIndex

open Relation (ReflTransGen)

/-! ## Moves are steps -/

theorem IndexerReachable.moves {R : Type} {s : IndexerRun R} (reached : IndexerReachable s)
    {j : Indexer R} (moves : s.indexer.Moves j) : ∃ t, IndexerReachable t ∧ t.indexer = j := by
  cases moves with
  | stay => exact ⟨s, reached, rfl⟩
  | accept run accepted => exact ⟨_, reached.step (.accept run accepted), rfl⟩
  | scale count => exact ⟨_, reached.step (.scale count), rfl⟩
  | goOn run active => exact ⟨_, reached.step (.goOn run active), rfl⟩
  | finish active =>
    -- the gate is shut, so there is a run at work that can end
    have gate := reached.orderly.gate
    rw [active] at gate
    obtain ⟨n, rest, runs⟩ := List.exists_cons_of_length_eq_add_one gate
    have there : n ∈ s.active := by
      rw [runs]
      exact List.mem_cons_self
    have on : s.stage n = .active := by
      have active := (List.mem_filter.mp there).2
      cases stage : s.stage n with
      | active => rfl
      | _ =>
        rw [stage] at active
        cases active
    exact ⟨_, reached.step (.run (.finish on (.ok {}))), rfl⟩

/-- A run at work can end in any way, and then take its last steps. -/
theorem IndexerRun.ends {R : Type} {s : IndexerRun R} {n : Nat} (on : s.stage n = .active)
    (result : Except CrawlFault BatchReport) :
    ∃ t, ReflTransGen (RunStep n) s t ∧ t.stage n = .closed result ∧ t.indexer = s.indexer.finish ∧
      t.replies = s.replies ++ [(n, IndexPhase.reply result)] ∧
      t.exits = s.exits ++ if IndexPhase.stopsCrawler result then [n] else [] := by
  let ended := { s.reaches n (.ended result) with indexer := s.indexer.finish }
  have finish : RunStep n s ended := .finish on result
  let told := { ended.reaches n (.answered result) with
    replies := ended.replies ++ [(n, IndexPhase.reply result)] }
  have answer : RunStep n ended told := .answer (Function.update_self ..)
  have stage : told.stage n = .answered result := Function.update_self ..
  cases stops : IndexPhase.stopsCrawler result with
  | true =>
    rw [RunStage.answered, if_pos stops] at stage
    exact ⟨_, ((ReflTransGen.single finish).tail answer).tail (.exit stage), Function.update_self ..,
      rfl, rfl, rfl⟩
  | false =>
    rw [RunStage.answered, stops, if_neg Bool.false_ne_true] at stage
    exact ⟨told, (ReflTransGen.single finish).tail answer, stage, rfl, rfl, (List.append_nil _).symm⟩

namespace Crawler

variable {may : Task → Prop} {w v : Crawler}

/-! ## Orders and ends -/

/-- An order that comes is let in without a reply, or declined. -/
theorem executeIndex_step {s : IndexerRun IndexErrand} (same : s.indexer = w.indexer)
    (service : String) (order : IndexOrder) (ticket : Nat) :
    ∃ t, ∃ told : List Reply, IndexerStep s t ∧
      t.indexer = (w.executeIndex ⟨service, .index order, some ticket⟩).indexer ∧
      t.replies = s.replies ++ told.map (s.arrivals.length, ·) ∧
      (w.executeIndex ⟨service, .index order, some ticket⟩).outcomes =
        told.map (fun reply => (ticket, .replied reply)) ++ w.outcomes := by
  rw [executeIndex]
  dsimp only
  cases accepted : w.indexer.accept { order := order, returns := some ticket } with
  | ok indexer =>
    rw [← same] at accepted
    exact ⟨_, [], .accept _ accepted, rfl, (List.append_nil _).symm, rfl⟩
  | error reason =>
    rw [← same] at accepted
    exact ⟨_, [.rejected reason], .decline _ accepted, same, rfl, rfl⟩

theorem bus_post (w : Crawler) (ticket : Nat) (e : Envelope) :
    (w.post ticket e).bus = (w.bus.post? ticket e).getD w.bus := by
  rw [post]
  split
  case h_1 bus posted =>
    rw [posted, wakeDispatcher]
    split <;> rfl
  case h_2 refused => rw [refused]; rfl

theorem outcomes_post (w : Crawler) (ticket : Nat) (e : Envelope) :
    w.outcomes ⊆ (w.post ticket e).outcomes := by
  rw [post]
  split
  case h_1 =>
    rw [wakeDispatcher]
    split <;> exact List.Subset.refl _
  case h_2 => exact List.subset_cons_self _ _

/-- A run that is over has ended, answered, and asked the bus to exit where the store failed. -/
theorem indexOver_runs {s : IndexerRun IndexErrand} (same : s.indexer = w.indexer) {n : Nat}
    (on : s.stage n = .active) (result : Except CrawlFault BatchReport) (ticket : Nat) :
    (∃ t, ReflTransGen (RunStep n) s t ∧ t.stage n = .closed result ∧
      t.indexer = (indexOver (some ticket) result w).indexer ∧
      t.replies = s.replies ++ [(n, IndexPhase.reply result)] ∧
      t.exits = s.exits ++ if IndexPhase.stopsCrawler result then [n] else []) ∧
    (ticket, .replied (IndexPhase.reply result)) ∈ (indexOver (some ticket) result w).outcomes ∧
    (indexOver (some ticket) result w).bus =
      if IndexPhase.stopsCrawler result then
        (w.bus.post? w.tickets ⟨Bus.controller, .exit, none⟩).getD w.bus
      else w.bus := by
  have indexer : (indexOver (some ticket) result w).indexer = w.indexer.finish :=
    congrArg Staff.indexer (staff_indexOver w (some ticket) result)
  obtain ⟨t, steps, closed, finished, said⟩ := IndexerRun.ends on result
  refine ⟨⟨t, steps, closed, ?_, said⟩, ?_⟩
  · rw [finished, same, indexer]
  · rw [indexOver]
    dsimp only
    split
    case isTrue => exact ⟨outcomes_post _ _ _ List.mem_cons_self, bus_post _ _ _⟩
    case isFalse => exact ⟨List.mem_cons_self, rfl⟩

/-! ## Every reachable state -/

theorem makeCall_moves (none : w.standIns = []) (call : ServiceCall) :
    w.indexer.Moves (w.makeCall call).indexer := by
  by_cases named : ∃ c : Crew, call.service = c.serviceName
  · obtain ⟨c, named⟩ := named
    obtain ⟨p, staff, _⟩ := makeCall_crew w none named
    rw [show (w.makeCall call).indexer = w.indexer from congrArg Staff.indexer staff]
    exact .stay
  · obtain ⟨i, staff, moves⟩ := makeCall_other w none (not_exists.mp named)
    rw [show (w.makeCall call).indexer = i from congrArg Staff.indexer staff]
    exact moves

theorem makeCalls_moves (none : w.standIns = []) (calls : List ServiceCall) :
    ReflTransGen Indexer.Moves w.indexer (calls.foldl makeCall w).indexer := by
  induction calls generalizing w with
  | nil => exact .refl
  | cons call rest ih =>
    have still : (w.makeCall call).standIns = [] :=
      (congrArg Front.standIns (makeCall_front none call)).trans none
    exact .head (makeCall_moves none call) (ih still)

theorem dispatcherTurn_moves (none : w.standIns = []) :
    ReflTransGen Indexer.Moves w.indexer w.dispatcherTurn.indexer := by
  rcases w.dispatcherTurn_cases with same | ⟨e, rest, running, up, free, next⟩ | ⟨busy, through⟩
  · rw [same]
  · obtain ⟨taken, staff, turn⟩ := dispatcherTurn_take running up free next
    have still : taken.standIns = [] := (congrArg (·.toFront.standIns) staff).trans none
    have calls := makeCalls_moves still (w.bus.handle e).1
    rw [show taken.indexer = w.indexer from congrArg Staff.indexer staff] at calls
    rw [show w.dispatcherTurn.indexer = _ from congrArg Staff.indexer turn]
    exact calls
  · obtain ⟨_, staff⟩ := dispatcherTurn_finish busy through
    rw [show w.dispatcherTurn.indexer = w.indexer from congrArg Staff.indexer staff]

theorem Staff.Moves.on_indexer {s t : Staff} (moves : s.Moves may t) : s.indexer.Moves t.indexer := by
  cases moves with
  | indexer moves => exact moves
  | worker => exact .stay
  | drainer => exact .stay
  | start => exact .stay
  | register => exact .stay

/-- The indexer of a reachable crawler is one that orders, scalings and runs lead to. -/
theorem IsReached.indexer (reached : IsReached w) :
    ∃ s : IndexerRun IndexErrand, IndexerReachable s ∧ s.indexer = w.indexer := by
  have moved {s : IndexerRun IndexErrand} (reached : IndexerReachable s) {j : Indexer IndexErrand}
      (moves : ReflTransGen Indexer.Moves s.indexer j) :
      ∃ t : IndexerRun IndexErrand, IndexerReachable t ∧ t.indexer = j := by
    induction moves with
    | refl => exact ⟨s, reached, rfl⟩
    | tail _ step ih =>
      obtain ⟨t, reached, rfl⟩ := ih
      exact reached.moves step
  obtain ⟨settings, node, store, files, steps⟩ := reached
  induction steps with
  | refl => exact ⟨{}, .start, rfl⟩
  | @tail u v before step ih =>
    obtain ⟨s, reachedS, same⟩ := ih
    have standIns : u.standIns = [] :=
      (IsReached.inOrder ⟨settings, node, store, files, before⟩).standIns
    rcases step.moves with ⟨_, rfl⟩ | moves
    · exact moved reachedS (same ▸ dispatcherTurn_moves standIns)
    · exact moved reachedS (same ▸ .single moves.on_indexer)

end Crawler

end ChainIndex
