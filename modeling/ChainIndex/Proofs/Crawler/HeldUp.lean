import Mathlib.Logic.Relation
import ChainIndex.Proofs.Crawler.Staff

/-!
# A dispatcher that is held up

The dispatcher makes a call and waits until it returns.  A call that puts items into a pool returns
once they are in the queue, and the queue is bounded.  So the dispatcher gets on by itself exactly
where every pool that its calls are about has room for their items.  Where one has not, nothing but
the workers of that pool lets it go on, whatever else happens.
-/

namespace ChainIndex

open Relation (ReflTransGen)

namespace Crawler

/-! ## Steps -/

/-- A step of a crawler, where only some tasks may take a turn. -/
inductive CrawlerStep (may : Task → Prop) (w : Crawler) : Crawler → Prop
  /-- A task takes a turn. -/
  | turn (task : Task) (allowed : may task) : CrawlerStep may w (w.run task)
  /-- A caller brings a message to the bus. -/
  | post (ticket : Nat) (e : Envelope) : CrawlerStep may w (w.post ticket e)
  /-- A caller no longer waits for room. -/
  | cancel (ticket : Nat) : CrawlerStep may w { w with bus := w.bus.cancel ticket }
  /-- The dispatcher is started. -/
  | start : CrawlerStep may w w.startDispatcher
  /-- A service is registered. -/
  | register {service : String} {bus : Bus} (free : w.bus.register service = .ok bus) :
      CrawlerStep may w { w with bus := bus }
  /-- Anything else happens that leaves the bus, the pools and the indexer alone: time passes, or
  the node, the store and the files change. -/
  | other {v : Crawler} (bus : v.bus = w.bus) (staff : v.staff = w.staff) : CrawlerStep may w v

/-- What a crawler with its services becomes, from before its dispatcher is started. -/
def IsReached (w : Crawler) : Prop :=
  ∃ settings node store files,
    ReflTransGen (CrawlerStep fun _ => True)
      { settings := settings, node := node, store := store, files := files,
        bus := { services := (services settings).map (·.1) } } w

/-- What a step of anyone but the dispatcher does to the staff. -/
inductive Staff.Moves (may : Task → Prop) (s : Staff) : Staff → Prop
  /-- A worker works. -/
  | worker {c : Crew} {id : Nat} {p : Pool Task c.Job} (allowed : may (.worker c id))
      (eases : (s.pool c).Eases p) : Staff.Moves may s (s.withPool c p)
  /-- A drainer puts items into a pool. -/
  | drainer {c : Crew} {crew : Crew} {id : Nat} (items : List (PoolItem c.Job)) :
      Staff.Moves may s (s.withPool c ((s.pool c).send (.drainer crew id) items).2)
  /-- An index run goes on, or nothing changes. -/
  | indexer {i : Indexer IndexErrand} (moves : s.indexer.Moves i) :
      Staff.Moves may s { s with indexer := i }
  /-- The dispatcher is started. -/
  | start : Staff.Moves may s { s with running := true }
  /-- A service is registered. -/
  | register {service : String} (free : service ∉ s.services) :
      Staff.Moves may s { s with services := s.services ++ [service] }

variable {may : Task → Prop} {w v : Crawler}

theorem Staff.Moves.of_eq {s t : Staff} (same : t = s) : Staff.Moves may s t := by
  rw [same]
  exact .indexer .stay

theorem workerTurn_eq (c : Crew) (id : Nat) (w : Crawler) :
    workerTurn c id w = (crewed c).turn id w := by
  cases c <;> rfl

theorem CrawlerStep.moves (step : CrawlerStep may w v) :
    (may .dispatcher ∧ v = w.dispatcherTurn) ∨ Staff.Moves may w.staff v.staff := by
  cases step with
  | turn task allowed =>
    cases task with
    | dispatcher => exact .inl ⟨allowed, rfl⟩
    | worker c id =>
      obtain ⟨p, staff, eases⟩ := staff_turn w c id
      refine .inr ?_
      rw [run, workerTurn_eq, staff]
      exact .worker allowed eases
    | drainer crew id =>
      obtain ⟨c, items, staff⟩ := staff_drainerTurn w crew id
      refine .inr ?_
      rw [run, staff]
      exact .drainer items
    | indexing =>
      refine .inr ?_
      rw [run]
      rcases staff_indexingTurn w with same | ⟨active, run, staff⟩ | ⟨active, staff⟩
      · exact .of_eq same
      · rw [staff]
        exact .indexer (.goOn run active)
      · rw [staff]
        exact .indexer (.finish active)
    | ticker => exact .inr (.of_eq (staff_tickerTurn w))
    | posting ticket => exact .inr (.of_eq (staff_postingTurn w ticket))
    | awaiting ticket job => exact .inr (.of_eq (staff_awaitingTurn w ticket job))
    | answering id => exact .inr (.of_eq (staff_answeringTurn w id))
  | post ticket e => exact .inr (.of_eq (staff_post w ticket e))
  | cancel ticket => exact .inr (.of_eq rfl)
  | start =>
    refine .inr ?_
    rw [startDispatcher, staff_wakeDispatcher]
    exact .start
  | register free =>
    rw [Bus.register] at free
    split at free
    case isTrue => cases free
    case isFalse unknown =>
      cases free
      refine .inr (.register (s := w.staff) ?_)
      rw [Bus.isRegistered, List.contains_iff_mem] at unknown
      exact unknown
  | other bus staff => exact .inr (.of_eq staff)

/-! ## What the dispatcher does -/

/-- The items that a message at the head of the mailbox puts into the pool of a crew. -/
def demand (w : Crawler) (e : Envelope) (c : Crew) : Nat :=
  ((w.bus.handle e).1.find? fun call => call.service = c.serviceName).elim 0
    fun call => call.load (w.pool c)

/-- The pools are tight, the dispatcher waits in none of them while it is on nothing, and every
crew is registered. -/
structure Staff.InOrder (s : Staff) : Prop where
  tight : ∀ c, (s.pool c).Tight
  capacity : ∀ c, (s.pool c).capacity = poolCapacity
  free : s.desk = .free → ∀ c, (s.pool c).isSending .dispatcher = false
  standIns : s.standIns = []
  services : s.services.Nodup
  registered : ∀ c : Crew, c.serviceName ∈ s.services

theorem isHeldUp_iff : w.isHeldUp = true ↔ ∃ c, (w.pool c).isSending .dispatcher = true := by
  rw [isHeldUp]
  simp only [Bool.or_eq_true]
  constructor
  · rintro ((((held | held) | held) | held) | held)
    · exact ⟨.fetcher, held⟩
    · exact ⟨.tracer, held⟩
    · exact ⟨.downloader, held⟩
    · exact ⟨.fileWriter, held⟩
    · exact ⟨.rowWriter, held⟩
  · rintro ⟨c, held⟩
    cases c with
    | fetcher => exact .inl (.inl (.inl (.inl held)))
    | tracer => exact .inl (.inl (.inl (.inr held)))
    | downloader => exact .inl (.inl (.inr held))
    | fileWriter => exact .inl (.inr held)
    | rowWriter => exact .inr held

section Calls

variable (none : w.standIns = [])

include none

theorem makeCall_front (call : ServiceCall) :
    (w.makeCall call).staff.toFront = w.staff.toFront := by
  by_cases named : ∃ c : Crew, call.service = c.serviceName
  · obtain ⟨c, named⟩ := named
    obtain ⟨p, staff, _⟩ := makeCall_crew w none named
    rw [staff]
    rfl
  · obtain ⟨i, staff, _⟩ := makeCall_other w none (not_exists.mp named)
    rw [staff]

/-- A call leaves the pools of other crews as they are. -/
theorem makeCall_pool_of_ne {call : ServiceCall} {c : Crew} (other : call.service ≠ c.serviceName) :
    (w.makeCall call).pool c = w.pool c := by
  by_cases named : ∃ d : Crew, call.service = d.serviceName
  · obtain ⟨d, named⟩ := named
    obtain ⟨p, staff, _⟩ := makeCall_crew w none named
    have different : c ≠ d := by
      rintro rfl
      exact other named
    exact (congrFun (congrArg Staff.pool staff) c).trans (Staff.pool_withPool_of_ne _ different p)
  · obtain ⟨i, staff, _⟩ := makeCall_other w none (not_exists.mp named)
    exact congrFun (congrArg Staff.pool staff) c

theorem makeCalls_front (calls : List ServiceCall) :
    (calls.foldl makeCall w).staff.toFront = w.staff.toFront := by
  induction calls generalizing w with
  | nil => rfl
  | cons call rest ih =>
    have front := makeCall_front none call
    have still : (w.makeCall call).standIns = [] := (congrArg Front.standIns front).trans none
    rw [List.foldl_cons, ih still, front]

theorem makeCalls_pool_of_ne {calls : List ServiceCall} {c : Crew}
    (other : ∀ call ∈ calls, call.service ≠ c.serviceName) :
    (calls.foldl makeCall w).pool c = w.pool c := by
  induction calls generalizing w with
  | nil => rfl
  | cons call rest ih =>
    have still : (w.makeCall call).standIns = [] :=
      (congrArg Front.standIns (makeCall_front none call)).trans none
    rw [List.foldl_cons, ih still fun x hx => other x (List.mem_cons_of_mem _ hx),
      makeCall_pool_of_ne none (other call List.mem_cons_self)]

/-- Calls to different services put the items of each into its own pool. -/
theorem makeCalls_pool {calls : List ServiceCall} (distinct : (calls.map (·.service)).Nodup)
    (c : Crew) :
    (w.pool c).Gets .dispatcher
      ((calls.find? fun call => call.service = c.serviceName).elim 0 fun call =>
        call.load (w.pool c))
      ((calls.foldl makeCall w).pool c) := by
  cases found : calls.find? fun call => call.service = c.serviceName with
  | none =>
    have other : ∀ call ∈ calls, call.service ≠ c.serviceName := by
      intro call hcall
      have passed := List.find?_eq_none.mp found call hcall
      simpa using passed
    rw [makeCalls_pool_of_ne none other]
    exact Pool.gets_send (w.pool c) .dispatcher []
  | some call =>
    obtain ⟨named, before, behind, rfl, passed⟩ := List.find?_eq_some_iff_append.mp found
    have named : call.service = c.serviceName := of_decide_eq_true named
    have first : ∀ x ∈ before, x.service ≠ c.serviceName := by
      intro x hx
      simpa using passed x hx
    have last : ∀ x ∈ behind, x.service ≠ c.serviceName := by
      intro x hx same
      rw [List.map_append, List.map_cons] at distinct
      have unique := (List.nodup_cons.mp (List.nodup_append.mp distinct).2.1).1
      exact unique (named.trans same.symm ▸ List.mem_map_of_mem hx)
    have pool := makeCalls_pool_of_ne none first
    have still : (before.foldl makeCall w).standIns = [] :=
      (congrArg Front.standIns (makeCalls_front none before)).trans none
    obtain ⟨p, staff, gets⟩ := makeCall_crew (before.foldl makeCall w) still named
    have after : ((before.foldl makeCall w).makeCall call).standIns = [] :=
      (congrArg Front.standIns (makeCall_front still call)).trans still
    rw [List.foldl_append, List.foldl_cons, makeCalls_pool_of_ne after last]
    rw [show ((before.foldl makeCall w).makeCall call).pool c = p from
      (congrFun (congrArg Staff.pool staff) c).trans (Staff.pool_withPool ..)]
    rw [pool] at gets
    exact gets

end Calls

/-- No two calls for one message are to the same service. -/
theorem services_handle_nodup (b : Bus) (distinct : b.services.Nodup) (e : Envelope) :
    ((b.handle e).1.map (·.service)).Nodup := by
  rw [Bus.handle]
  split
  case isTrue =>
    split
    case h_1 => split <;> simp
    case h_2 =>
      rw [List.map_map]
      exact (List.map_id _).symm ▸ distinct
    case h_3 => exact List.nodup_nil
  case isFalse => split <;> simp

/-- The dispatcher waits, or has no message; or it takes one; or its calls have returned. -/
theorem dispatcherTurn_cases (w : Crawler) : w.dispatcherTurn = w ∨
    (∃ e rest, w.bus.running = true ∧ w.bus.exited = false ∧ w.bus.desk = .free ∧
      w.bus.mailbox = e :: rest) ∨
    w.bus.desk ≠ .free ∧ w.isHeldUp = false := by
  by_cases free : w.bus.desk = .free
  · by_cases ready : w.bus.running = true ∧ w.bus.exited = false ∧ w.bus.mailbox ≠ []
    · obtain ⟨running, up, waiting⟩ := ready
      obtain ⟨e, rest, next⟩ := List.exists_cons_of_ne_nil waiting
      exact .inr (.inl ⟨e, rest, running, up, free, next⟩)
    · have nothing : w.bus.take? = none := by
        rw [Bus.take?]
        split
        case isFalse => rfl
        case isTrue on =>
          simp only [Bool.and_eq_true, Bool.not_eq_true'] at on
          split
          case h_1 => rfl
          case h_2 e rest next =>
            exact absurd ⟨on.1.1, on.1.2, next ▸ List.cons_ne_nil e rest⟩ ready
      refine .inl ?_
      rw [dispatcherTurn, free]
      simp only [nothing]
  · cases held : w.isHeldUp with
    | true =>
      refine .inl ?_
      rw [dispatcherTurn]
      split
      case h_1 => contradiction
      case h_2 => rw [held, if_pos rfl]
    | false => exact .inr (.inr ⟨free, rfl⟩)

/-- A dispatcher that waits for room does nothing. -/
theorem dispatcherTurn_of_isHeldUp (busy : w.bus.desk ≠ .free) (held : w.isHeldUp = true) :
    w.dispatcherTurn = w := by
  rcases w.dispatcherTurn_cases with same | ⟨_, _, _, _, free, _⟩ | ⟨_, through⟩
  · exact same
  · exact absurd free busy
  · rw [held] at through
    cases through

/-- The dispatcher takes a message and makes its calls. -/
theorem dispatcherTurn_take {e : Envelope} {rest : List Envelope} (running : w.bus.running = true)
    (up : w.bus.exited = false) (free : w.bus.desk = .free) (next : w.bus.mailbox = e :: rest) :
    ∃ taken : Crawler, taken.staff = { w.staff with desk := (w.bus.handle e).2.2 } ∧
      w.dispatcherTurn.staff = ((w.bus.handle e).1.foldl makeCall taken).staff := by
  have takes : w.bus.take? = some ((w.bus.handle e).1, (w.bus.handle e).2.1,
      { w.bus with mailbox := rest, desk := (w.bus.handle e).2.2 }.letIn) := by
    rw [Bus.take?, if_pos (by rw [running, up, free]; rfl), next]
  refine ⟨{ w with bus := { w.bus with
    mailbox := rest, desk := (w.bus.handle e).2.2 }.letIn }.announceAll (w.bus.handle e).2.1,
    staff_announceAll _ _, ?_⟩
  rw [dispatcherTurn, free]
  simp only [takes]
  rfl

/-- The items of the calls get into the pools, and nothing else changes but the indexer. -/
theorem dispatcherTurn_calls (h : w.staff.InOrder) {e : Envelope} {rest : List Envelope}
    (running : w.bus.running = true) (up : w.bus.exited = false) (free : w.bus.desk = .free)
    (next : w.bus.mailbox = e :: rest) :
    w.dispatcherTurn.staff.toFront = { w.staff.toFront with desk := (w.bus.handle e).2.2 } ∧
      ∀ c, (w.pool c).Gets .dispatcher (w.demand e c) (w.dispatcherTurn.pool c) := by
  obtain ⟨taken, staff, turn⟩ := dispatcherTurn_take running up free next
  have pool : taken.pool = w.pool := congrArg Staff.pool staff
  have still : taken.standIns = [] := (congrArg (·.toFront.standIns) staff).trans h.standIns
  constructor
  · rw [turn, makeCalls_front still, staff]
  · intro c
    have gets := makeCalls_pool still (services_handle_nodup w.bus h.services e) c
    rw [pool] at gets
    rw [show w.dispatcherTurn.pool c = _ from congrFun (congrArg Staff.pool turn) c]
    exact gets

/-- Calls that have returned leave the dispatcher on nothing. -/
theorem dispatcherTurn_finish (busy : w.bus.desk ≠ .free) (through : w.isHeldUp = false) :
    ∃ exited, w.dispatcherTurn.staff = { w.staff with desk := .free, exited := exited } := by
  have turn : w.dispatcherTurn =
      ({ w with bus := w.bus.finish.2 }.announceAll w.bus.finish.1).wakeFirst .dispatcher := by
    rw [dispatcherTurn]
    split
    case h_1 free => exact absurd free busy
    case h_2 => rw [through, if_neg Bool.false_ne_true]
  have finished : w.dispatcherTurn.staff = { w with bus := w.bus.finish.2 }.staff := by
    rw [turn, staff_wakeFirst, staff_announceAll]
  rw [finished, Bus.finish]
  split
  case h_1 free => exact absurd free busy
  case h_2 => exact ⟨_, rfl⟩
  case h_3 => exact ⟨_, rfl⟩

/-- A message without calls is done with at once. -/
theorem demand_of_free {e : Envelope} (done : (w.bus.handle e).2.2 = .free) (c : Crew) :
    w.demand e c = 0 := by
  have no_calls : (w.bus.handle e).1 = [] := by
    revert done
    rw [Bus.handle]
    split
    case isTrue =>
      split
      case h_1 =>
        split
        case isTrue => exact fun done => nomatch done
        case isFalse => exact fun _ => rfl
      case h_2 => exact fun done => nomatch done
      case h_3 => exact fun _ => rfl
    case isFalse =>
      split
      case isTrue => exact fun done => nomatch done
      case isFalse => exact fun _ => rfl
  rw [demand, no_calls]
  rfl

/-! ## Every reachable state -/

theorem dispatcher_ne_drainer (crew : Crew) (id : Nat) : Task.dispatcher ≠ .drainer crew id := nofun

namespace Staff.InOrder

/-- The pool of a crew may change as long as it stays tight and the dispatcher is not made to wait
in it. -/
theorem withPool {s : Staff} (h : s.InOrder) {c : Crew} {p : Pool Task c.Job} (tight : p.Tight)
    (capacity : p.capacity = (s.pool c).capacity)
    (idle : (s.pool c).isSending .dispatcher = false → p.isSending .dispatcher = false) :
    (s.withPool c p).InOrder := by
  have others {d : Crew} (other : d ≠ c) : (s.withPool c p).pool d = s.pool d :=
    s.pool_withPool_of_ne other p
  refine ⟨fun d => ?_, fun d => ?_, fun free d => ?_, h.standIns, h.services, h.registered⟩
  · by_cases here : d = c
    · subst here
      rw [pool_withPool]
      exact tight
    · rw [others here]
      exact h.tight d
  · by_cases here : d = c
    · subst here
      rw [pool_withPool, capacity]
      exact h.capacity d
    · rw [others here]
      exact h.capacity d
  · by_cases here : d = c
    · subst here
      rw [pool_withPool]
      exact idle (h.free free d)
    · rw [others here]
      exact h.free free d

theorem moves {s t : Staff} (h : s.InOrder) (moves : s.Moves may t) : t.InOrder := by
  cases moves with
  | @worker c id p allowed eases =>
    exact h.withPool (eases.tight (h.tight c)) eases.capacity (eases.idle .dispatcher)
  | @drainer c crew id items =>
    refine h.withPool ((h.tight c).send _ items) (Pool.capacity_send _ _ items) fun idle => ?_
    rw [(h.tight c).isSending_send_of_ne (dispatcher_ne_drainer crew id), idle]
  | indexer i => exact ⟨h.tight, h.capacity, h.free, h.standIns, h.services, h.registered⟩
  | start => exact ⟨h.tight, h.capacity, h.free, h.standIns, h.services, h.registered⟩
  | @register service free =>
    refine ⟨h.tight, h.capacity, h.free, h.standIns, ?_, fun c => ?_⟩
    · rw [List.nodup_append]
      refine ⟨h.services, List.nodup_singleton _, fun a ha b hb same => ?_⟩
      rw [same, List.mem_singleton.mp hb] at ha
      exact free ha
    · exact List.mem_append_left _ (h.registered c)

end Staff.InOrder

theorem inOrder_dispatcherTurn (h : w.staff.InOrder) : w.dispatcherTurn.staff.InOrder := by
  rcases w.dispatcherTurn_cases with same | ⟨e, rest, running, up, free, next⟩ | ⟨busy, through⟩
  · rw [same]
    exact h
  · obtain ⟨front, gets⟩ := dispatcherTurn_calls h running up free next
    refine ⟨fun c => (gets c).tight (h.tight c), fun c => ?_, fun done c => ?_, ?_, ?_, ?_⟩
    · exact (gets c).capacity.trans (h.capacity c)
    · have done : (w.bus.handle e).2.2 = .free := (congrArg Front.desk front).symm.trans done
      exact ((gets c).isSending (h.tight c) (h.free free c)).mpr (.inl (demand_of_free done c))
    · exact (congrArg Front.standIns front).trans h.standIns
    · exact (congrArg Front.services front).symm ▸ h.services
    · exact (congrArg Front.services front).symm ▸ h.registered
  · obtain ⟨_, staff⟩ := dispatcherTurn_finish busy through
    have idle (c : Crew) : (w.pool c).isSending .dispatcher = false := by
      rw [← Bool.not_eq_true]
      intro waits
      rw [isHeldUp_iff.mpr ⟨c, waits⟩] at through
      cases through
    rw [staff]
    exact ⟨h.tight, h.capacity, fun _ => idle, h.standIns, h.services, h.registered⟩

theorem inOrder_fresh (settings : Settings) (node : Script) (store : Store) (files : FileTree) :
    Staff.InOrder (staff
      { settings := settings, node := node, store := store, files := files,
        bus := { services := (services settings).map (·.1) } }) where
  tight c := by cases c <;> exact Pool.tight_ofCapacity _
  capacity c := by cases c <;> rfl
  free _ c := by cases c <;> rfl
  standIns := rfl
  services := by
    show ["BlockFetcher", "BlockTracer", "BlockIndexer", "Downloader", "FsWriter", "DbWriter"].Nodup
    decide
  registered c := by cases c <;> exact List.contains_iff_mem.mp rfl

theorem IsReached.inOrder (reached : IsReached w) : w.staff.InOrder := by
  obtain ⟨settings, node, store, files, steps⟩ := reached
  induction steps with
  | refl => exact inOrder_fresh settings node store files
  | tail _ step ih =>
    rcases step.moves with ⟨_, rfl⟩ | moves
    · exact inOrder_dispatcherTurn ih
    · exact ih.moves moves

/-! ## Room for a message -/

/-- The dispatcher waits for room in the pool of a crew, and no worker of the crew takes a turn that
makes some. -/
structure Staff.HeldUp (may : Task → Prop) (c : Crew) (s : Staff) : Prop where
  inOrder : s.InOrder
  busy : s.desk ≠ .free
  waits : (s.pool c).isSending .dispatcher = true
  unaided : ∀ id, may (.worker c id) → (s.pool c).staff = []

/-- It waits for good. -/
theorem Staff.HeldUp.moves {c : Crew} {s t : Staff} (h : s.HeldUp may c) (moves : s.Moves may t) :
    t.HeldUp may c := by
  have inOrder := h.inOrder.moves moves
  cases moves with
  | @worker d id p allowed eases =>
    by_cases here : c = d
    · subst here
      rw [eases.still (h.unaided id allowed), withPool_self]
      exact h
    · have same := s.pool_withPool_of_ne here p
      exact ⟨inOrder, h.busy, same ▸ h.waits, same ▸ h.unaided⟩
  | @drainer d crew id items =>
    by_cases here : c = d
    · subst here
      refine ⟨inOrder, h.busy, ?_, ?_⟩
      · rw [s.pool_withPool,
          (h.inOrder.tight c).isSending_send_of_ne (dispatcher_ne_drainer crew id)]
        exact h.waits
      · rw [s.pool_withPool, Pool.staff_send]
        exact h.unaided
    · have same := s.pool_withPool_of_ne here
        ((s.pool d).send (.drainer crew id) items).2
      exact ⟨inOrder, h.busy, same ▸ h.waits, same ▸ h.unaided⟩
  | indexer => exact ⟨inOrder, h.busy, h.waits, h.unaided⟩
  | start => exact ⟨inOrder, h.busy, h.waits, h.unaided⟩
  | register => exact ⟨inOrder, h.busy, h.waits, h.unaided⟩

theorem heldUp_steps {c : Crew} (h : w.staff.HeldUp may c)
    (steps : ReflTransGen (CrawlerStep may) w v) : v.staff.HeldUp may c := by
  induction steps with
  | refl => exact h
  | tail _ step ih =>
    rcases step.moves with ⟨_, rfl⟩ | moves
    · rw [dispatcherTurn_of_isHeldUp ih.busy (isHeldUp_iff.mpr ⟨c, ih.waits⟩)]
      exact ih
    · exact ih.moves moves

section Taken

variable (reached : IsReached w) {e : Envelope} {rest : List Envelope}
  (running : w.bus.running = true) (up : w.bus.exited = false) (free : w.bus.desk = .free)
  (next : w.bus.mailbox = e :: rest)

include reached running up free next

/-- After it took a message, the dispatcher does not wait in a pool exactly where the pool had room. -/
theorem isSending_dispatcherTurn (c : Crew) :
    (w.dispatcherTurn.pool c).isSending .dispatcher = false ↔
      w.demand e c = 0 ∨ (w.pool c).queue.length + w.demand e c ≤ poolCapacity := by
  have h := reached.inOrder
  have capacity : (w.pool c).capacity = poolCapacity := h.capacity c
  rw [← capacity]
  exact ((dispatcherTurn_calls h running up free next).2 c).isSending (h.tight c) (h.free free c)

/-- Where the pool of a crew had no room, the dispatcher waits for the workers of the crew. -/
theorem heldUp_dispatcherTurn {c : Crew}
    (lacking : ¬(w.demand e c = 0 ∨ (w.pool c).queue.length + w.demand e c ≤ poolCapacity))
    (unaided : ∀ id, may (.worker c id) → (w.pool c).staff = []) :
    w.dispatcherTurn.staff.HeldUp may c := by
  have h := reached.inOrder
  obtain ⟨front, gets⟩ := dispatcherTurn_calls h running up free next
  have about : w.demand e c ≠ 0 := fun nothing => lacking (.inl nothing)
  refine ⟨inOrder_dispatcherTurn h, ?_, ?_, ?_⟩
  · intro idle
    exact about (demand_of_free ((congrArg Front.desk front).symm.trans idle) c)
  · rw [← isSending_dispatcherTurn reached running up free next c, Bool.not_eq_false] at lacking
    exact lacking
  · intro id allowed
    exact ((gets c).staff about).trans (unaided id allowed)

end Taken

/-- A task that is no worker of a crew that the message at the head of the mailbox is about. -/
def IsAside (w : Crawler) (e : Envelope) (task : Task) : Prop :=
  ∀ c id, task = .worker c id → w.demand e c = 0

/-- In every reachable state, the dispatcher is through with the message at the head of the mailbox
without a turn of the workers that the message is about, exactly where the queue of each of their
pools has room for the items that the message puts in: one for a single job, and one exit for each
worker that has to go. -/
theorem dispatcher_through_iff_room (reached : IsReached w) {e : Envelope} {rest : List Envelope}
    (running : w.bus.running = true) (up : w.bus.exited = false) (free : w.bus.desk = .free)
    (next : w.bus.mailbox = e :: rest) :
    (∃ v, ReflTransGen (CrawlerStep (w.IsAside e)) w.dispatcherTurn v ∧ v.bus.desk = .free) ↔
      ∀ c, w.demand e c = 0 ∨ (w.pool c).queue.length + w.demand e c ≤ poolCapacity := by
  constructor
  · rintro ⟨v, steps, done⟩ c
    by_contra lacking
    -- then the message is about this crew, and its workers take no turn
    have held : w.dispatcherTurn.staff.HeldUp (w.IsAside e) c :=
      heldUp_dispatcherTurn reached running up free next lacking
        fun id aside => absurd (.inl (aside c id rfl)) lacking
    exact (heldUp_steps held steps).busy done
  · intro room
    by_cases done : w.dispatcherTurn.bus.desk = .free
    · exact ⟨_, .refl, done⟩
    · have idle : w.dispatcherTurn.isHeldUp = false := by
        rw [← Bool.not_eq_true, isHeldUp_iff]
        rintro ⟨c, waits⟩
        rw [(isSending_dispatcherTurn reached running up free next c).mpr (room c)] at waits
        cases waits
      have aside : w.IsAside e .dispatcher := fun c id same => nomatch same
      obtain ⟨_, staff⟩ := dispatcherTurn_finish done idle
      exact ⟨_, .single (.turn .dispatcher aside), congrArg (·.toFront.desk) staff⟩

/-- A crawler with its services, but without workers. -/
def unmanned : Crawler :=
  startDispatcher { store := default, bus := { services := (services {}).map (·.1) } }

theorem isReached_unmanned : IsReached unmanned := ⟨{}, {}, default, {}, .single .start⟩

theorem IsReached.step (reached : IsReached w) (step : CrawlerStep (fun _ => True) w v) :
    IsReached v := by
  obtain ⟨settings, node, store, files, steps⟩ := reached
  exact ⟨settings, node, store, files, steps.tail step⟩

/-- Its fetcher is to be asked for a block. -/
def asked : Crawler := unmanned.post 0 ⟨"BlockFetcher", .getBlock 1, none⟩

theorem dispatcher_through_iff_room_of_block : IsReached asked ∧
    ∃ v, ReflTransGen (CrawlerStep (asked.IsAside ⟨"BlockFetcher", .getBlock 1, none⟩))
      asked.dispatcherTurn v ∧ v.bus.desk = .free := by
  have reached : IsReached asked :=
    isReached_unmanned.step (.post 0 ⟨"BlockFetcher", .getBlock 1, none⟩)
  refine ⟨reached, (dispatcher_through_iff_room reached rfl rfl rfl rfl).mpr fun c => ?_⟩
  cases c with
  | fetcher => exact .inr (by decide)
  | tracer => exact .inl rfl
  | downloader => exact .inl rfl
  | fileWriter => exact .inl rfl
  | rowWriter => exact .inl rfl

/-- Where a crew has no workers either, the dispatcher takes no message ever again. -/
theorem dispatcher_stuck_of_unmanned (reached : IsReached w) {e : Envelope} {rest : List Envelope}
    (running : w.bus.running = true) (up : w.bus.exited = false) (free : w.bus.desk = .free)
    (next : w.bus.mailbox = e :: rest) {c : Crew}
    (lacking : ¬(w.demand e c = 0 ∨ (w.pool c).queue.length + w.demand e c ≤ poolCapacity))
    (unmanned : (w.pool c).staff = []) (steps : ReflTransGen (CrawlerStep may) w.dispatcherTurn v) :
    v.bus.desk ≠ .free := by
  have held : w.dispatcherTurn.staff.HeldUp may c :=
    heldUp_dispatcherTurn reached running up free next lacking fun _ _ => unmanned
  exact (heldUp_steps held steps).busy

/-- A drainer that has an array for its request puts as many jobs into the pool. -/
theorem start?_of_vacant {f : Fanout Task FetchAsk BlockResult Nat} {id : Nat} {r : RangeRequest Nat}
    {queue : RangeQueue Nat} (takes : f.queue.receive? id = some (r, queue))
    (vacant : SlotCache.find? f.cache.arrays r.id = none) (caller : Task) :
    ∃ done f' jobs, f.start? id caller = some (.started done, f') ∧
      jobs.length = r.numbers.length ∧ f'.pool = (f.pool.send caller jobs).2 := by
  rw [Fanout.start?, takes]
  simp only [SlotCache.allocate, vacant]
  exact ⟨_, _, _, rfl, (List.length_map _).trans List.length_zipIdx, rfl⟩

/-- The bus is as before. -/
theorem drainerTurn_start {id : Nat} {r : RangeRequest Nat} {queue : RangeQueue Nat}
    (off : w.fetcher.queue.current? id = none)
    (takes : w.fetcher.queue.receive? id = some (r, queue))
    (vacant : SlotCache.find? w.fetcher.cache.arrays r.id = none) :
    (drainerTurn .fetcher id w).bus = w.bus ∧ ∃ jobs, jobs.length = r.numbers.length ∧
      (drainerTurn .fetcher id w).pool .fetcher =
        ((w.pool .fetcher).send (.drainer .fetcher id) jobs).2 := by
  obtain ⟨done, f, jobs, starts, length, pool⟩ := start?_of_vacant takes vacant (.drainer .fetcher id)
  have bus (v : Crawler) : (fetchCrew.wakeIdle v).bus = v.bus := by
    rw [Crewed.wakeIdle]
    split <;> rfl
  rw [drainerTurn, drain?, off, starts]
  refine ⟨bus _, jobs, length, ?_⟩
  exact (congrFun (congrArg Staff.pool (staff_wakeIdle _ .fetcher)) .fetcher).trans pool

/-- The fetcher was asked for as many blocks as its queue has room for.  It is to be asked for one
more, and a scale call is behind. -/
def overasked : Crawler :=
  let ranged := unmanned.post 0 ⟨"BlockFetcher", .getRange "r" 0 1023, none⟩
  let accepted := ranged.dispatcherTurn.dispatcherTurn
  let asked := accepted.post 1 ⟨"BlockFetcher", .getBlock 1, none⟩
  asked.post 2 ⟨Bus.controller, .setWorkers "BlockFetcher" 4, some 2⟩

/-- The drainer has put the jobs for the range into the pool. -/
def flooded : Crawler := overasked.run (.drainer .fetcher 1)

theorem isReached_flooded : IsReached flooded := by
  have ranged := isReached_unmanned.step (.post 0 ⟨"BlockFetcher", .getRange "r" 0 1023, none⟩)
  have accepted := (ranged.step (.turn .dispatcher trivial)).step (.turn .dispatcher trivial)
  have asked := accepted.step (.post 1 ⟨"BlockFetcher", .getBlock 1, none⟩)
  have overasked := asked.step (.post 2 ⟨Bus.controller, .setWorkers "BlockFetcher" 4, some 2⟩)
  exact overasked.step (.turn (.drainer .fetcher 1) trivial)

theorem flooded_spec : flooded.bus = overasked.bus ∧ ∃ jobs, jobs.length = poolCapacity ∧
    flooded.pool .fetcher = ((overasked.pool .fetcher).send (.drainer .fetcher 1) jobs).2 := by
  have takes : overasked.fetcher.queue.receive? 1 =
      some (⟨"r", Window.numbers 0 1023, none⟩, _) := rfl
  obtain ⟨bus, jobs, length, pool⟩ := drainerTurn_start (w := overasked) rfl takes rfl
  refine ⟨bus, jobs, length.trans ?_, pool⟩
  rw [Window.numbers, List.length_map, List.length_range]
  rfl

/-- The dispatcher cannot ask for the next block, and never gets to the scale call. -/
theorem dispatcher_stuck_of_flooded : IsReached flooded ∧ flooded.bus.running = true ∧
    flooded.bus.exited = false ∧ flooded.bus.desk = .free ∧
    flooded.bus.mailbox = [⟨"BlockFetcher", .getBlock 1, none⟩,
      ⟨Bus.controller, .setWorkers "BlockFetcher" 4, some 2⟩] ∧
    ∀ v, ReflTransGen (CrawlerStep fun _ => True) flooded.dispatcherTurn v → v.bus.desk ≠ .free := by
  have reached := isReached_flooded
  obtain ⟨bus, jobs, count, pool⟩ := flooded_spec
  -- from here on only its bus and its pool matter
  generalize flooded = w at reached bus pool ⊢
  have queue : (w.pool .fetcher).queue = jobs := by
    rw [pool, Pool.send_of_room rfl]
    · rfl
    · show 0 + jobs.length ≤ poolCapacity
      rw [count, Nat.zero_add]
  have unmanned : (w.pool .fetcher).staff = [] := by
    rw [pool, Pool.staff_send]
    rfl
  have demanded : w.demand ⟨"BlockFetcher", .getBlock 1, none⟩ .fetcher = 1 := by
    rw [demand, bus]
    rfl
  have running : w.bus.running = true := congrArg Bus.running bus
  have up : w.bus.exited = false := congrArg Bus.exited bus
  have free : w.bus.desk = .free := congrArg Bus.desk bus
  have next : w.bus.mailbox = [⟨"BlockFetcher", .getBlock 1, none⟩,
      ⟨Bus.controller, .setWorkers "BlockFetcher" 4, some 2⟩] := congrArg Bus.mailbox bus
  refine ⟨reached, running, up, free, next, fun v steps => ?_⟩
  refine dispatcher_stuck_of_unmanned reached running up free next (c := .fetcher) ?_ unmanned steps
  rw [queue, demanded, count]
  decide

end Crawler

end ChainIndex
