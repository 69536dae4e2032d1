import Mathlib.Logic.Function.Basic
import ChainIndex.Crawler.Client
import ChainIndex.Proofs.Work.Room

/-!
# What the turns of a crawler leave alone

The dispatcher makes calls to pools and to the indexer, and waits for them.  `Crawler.staff` is what
these calls are about: the pools, the indexer, and what the dispatcher is on.  Most of what a crawler
does leaves the staff as it is: the clock, the tickets, the mailbox, the node, the store and the
files are no part of it.

A worker changes the pool of its crew, a drainer puts jobs into one, and an index run changes the
indexer.
-/

namespace ChainIndex

/-- What the workers of a crew do. -/
def Crew.Job : Crew → Type
  | .fetcher => FanJob FetchAsk Nat
  | .tracer => FanJob TraceAsk Nat
  | .downloader => DownloadErrand
  | .fileWriter => FileErrand
  | .rowWriter => RowErrand

/-- A message to a crew puts a job into its pool.  A range of blocks is queued before the pool, and
other messages are declined. -/
def Crew.hires : Crew → Command → Bool
  | .fetcher, .getBlock _ | .fetcher, .getHead => true
  | .tracer, .traceBlock _ | .tracer, .traceTransaction _ => true
  | .downloader, .downloadBlocks _ | .downloader, .downloadTraces _ => true
  | .fileWriter, .writeBlockFiles _ _ | .fileWriter, .writeTraceFiles _ _ => true
  | .rowWriter, .writeBlocks _ => true
  | _, _ => false

/-- The service that a call is made to. -/
def ServiceCall.service : ServiceCall → String
  | .execute e => e.service
  | .scale service _ | .shutdown service => service

/-- The items that a call to a crew puts into its pool. -/
def ServiceCall.load (call : ServiceCall) {c : Crew} (p : Pool Task c.Job) : Nat :=
  match call with
  | .execute e => if c.hires e.command then 1 else 0
  | .scale _ count => (p.setWorkers count).2.1
  | .shutdown _ => p.shutdown.1

/-- What a call or an index run makes of the indexer. -/
inductive Indexer.Moves {R : Type} (i : Indexer R) : Indexer R → Prop
  /-- It stays as it is. -/
  | stay : i.Moves i
  /-- A run is let in. -/
  | accept (run : R) {j : Indexer R} (accepted : i.accept run = .ok j) : i.Moves j
  /-- The indexer is scaled. -/
  | scale (count : UInt16) : i.Moves { i with workers := count }
  /-- The active run goes on. -/
  | goOn (run : R) (active : i.isActive) : i.Moves { i with run := some run }
  /-- The active run ends. -/
  | finish (active : i.isActive) : i.Moves i.finish

namespace Crawler

/-- A crew with its pool and its turns. -/
def crewed : (c : Crew) → Crewed c.Job
  | .fetcher => fetchCrew
  | .tracer => traceCrew
  | .downloader => downloadCrew
  | .fileWriter => fileCrew
  | .rowWriter => rowCrew

/-- The pool of a crew. -/
def pool (w : Crawler) : (c : Crew) → Pool Task c.Job
  | .fetcher => w.fetcher.pool
  | .tracer => w.tracer.pool
  | .downloader => w.downloader
  | .fileWriter => w.fileWriter
  | .rowWriter => w.rowWriter

/-- The services, and what the dispatcher is on. -/
structure Front where
  standIns : List StandIn
  services : List String
  running : Bool
  desk : Desk
  exited : Bool

/-- The services, what the dispatcher is on, and what its calls are about. -/
structure Staff extends Front where
  pool : (c : Crew) → Pool Task c.Job
  indexer : Indexer IndexErrand

def staff (w : Crawler) : Staff where
  standIns := w.standIns
  services := w.bus.services
  running := w.bus.running
  desk := w.bus.desk
  exited := w.bus.exited
  pool := w.pool
  indexer := w.indexer

/-- The staff with another pool for a crew. -/
def Staff.withPool (s : Staff) (c : Crew) (p : Pool Task c.Job) : Staff :=
  { s with pool := Function.update s.pool c p }

@[simp] theorem Staff.pool_withPool (s : Staff) (c : Crew) (p : Pool Task c.Job) :
    (s.withPool c p).pool c = p := Function.update_self ..

theorem Staff.pool_withPool_of_ne (s : Staff) {c d : Crew} (other : d ≠ c) (p : Pool Task c.Job) :
    (s.withPool c p).pool d = s.pool d := Function.update_of_ne other ..

@[simp] theorem Staff.withPool_withPool (s : Staff) (c : Crew) (p q : Pool Task c.Job) :
    (s.withPool c p).withPool c q = s.withPool c q := by
  simp only [withPool, Function.update_idem]

@[simp] theorem Staff.withPool_self (s : Staff) (c : Crew) : s.withPool c (s.pool c) = s := by
  rw [withPool, Function.update_eq_self]

/-! ## Tasks, tickets and the bus -/

section Frame

variable (w : Crawler)

@[simp] theorem staff_wakeAll (tasks : List Task) : (w.wakeAll tasks).staff = w.staff := rfl

@[simp] theorem staff_wakeFirst (task : Task) : (w.wakeFirst task).staff = w.staff := rfl

@[simp] theorem staff_sleep (delay : Nat) (task : Task) : (w.sleep delay task).staff = w.staff := rfl

@[simp] theorem staff_newTicket : w.newTicket.2.staff = w.staff := rfl

@[simp] theorem staff_forget (ticket : Nat) : (w.forget ticket).staff = w.staff := rfl

@[simp] theorem staff_announce (ticket : Nat) (outcome : Outcome) :
    (w.announce ticket outcome).staff = w.staff := rfl

@[simp] theorem staff_announceAll (outcomes : List (Nat × Outcome)) :
    (w.announceAll outcomes).staff = w.staff := by
  rw [announceAll]
  induction outcomes generalizing w with
  | nil => rfl
  | cons o rest ih => rw [List.foldl_cons, ih, staff_announce]

@[simp] theorem staff_respond (returns : Option Nat) (outcome : Outcome) :
    (w.respond returns outcome).staff = w.staff := staff_announceAll w _

@[simp] theorem staff_decline (service : String) (command : Command) (returns : Option Nat) :
    (w.decline service command returns).staff = w.staff := staff_respond w _ _

@[simp] theorem staff_wakeDispatcher : w.wakeDispatcher.staff = w.staff := by
  rw [wakeDispatcher]
  split <;> rfl

@[simp] theorem staff_post (ticket : Nat) (e : Envelope) : (w.post ticket e).staff = w.staff := by
  rw [post, Bus.post?]
  cases exited : w.bus.exited with
  | true => rfl
  | false =>
    rw [if_neg Bool.false_ne_true]
    refine (staff_wakeDispatcher _).trans ?_
    rw [staff, staff]
    exact congrArg (fun out => Staff.mk ⟨_, _, _, _, out⟩ _ _) exited.symm

@[simp] theorem staff_askFor (task : Task) (service : String) (command : Command) :
    (w.askFor task service command).2.staff = w.staff := staff_post _ _ _

@[simp] theorem staff_callNode {α : Type} (task : Task)
    (call : Script → Except NodeFault α × Script) : (w.callNode task call).2.staff = w.staff := by
  rw [callNode]
  dsimp only
  split
  case h_1 => rfl
  case h_2 =>
    split
    case h_1 => rfl
    case h_2 => split <;> rfl

@[simp] theorem staff_onStore {α : Type} (action : StateM Store α) :
    (w.onStore action).2.staff = w.staff := rfl

@[simp] theorem staff_takeBlocks (handle : SlotHandle) :
    (w.takeBlocks handle).2.staff = w.staff := by
  rw [takeBlocks]
  split <;> rfl

@[simp] theorem staff_takeTraces (handle : SlotHandle) :
    (w.takeTraces handle).2.staff = w.staff := by
  rw [takeTraces]
  split <;> rfl

/-! ## Runs -/

@[simp] theorem staff_windowTexts (kind : DownloadKind) (command : String)
    (reply : Except BusFault Reply) : (windowTexts kind command reply w).2.staff = w.staff := by
  rw [windowTexts]
  split
  case h_1 => rfl
  case h_2 =>
    split
    case h_1 => exact staff_takeBlocks w _
    case h_2 => exact staff_takeTraces w _

@[simp] theorem staff_windowBlocks (command : String) (reply : Except BusFault Reply) :
    (windowBlocks command reply w).2.staff = w.staff := by
  rw [windowBlocks]
  split
  case h_1 => rfl
  case h_2 => exact staff_takeBlocks w _

@[simp] theorem staff_downloadTold (phase : DownloadPhase) (command : String)
    (reply : Except BusFault Reply) : (downloadTold phase command reply w).2.staff = w.staff := by
  cases phase with
  | askWindow run last => exact staff_windowTexts w run.kind command reply
  | askWritten run last window => rfl
  | ended result => rfl
  | broken => rfl

@[simp] theorem staff_indexTold (phase : IndexPhase) (command : String)
    (reply : Except BusFault Reply) : (indexTold phase command reply w).2.staff = w.staff := by
  cases phase with
  | askHead run => rfl
  | askWindow run last => exact (staff_onStore _ _).trans (staff_windowBlocks w _ _)
  | ended result => rfl
  | broken => rfl

/-! ## Workers on a job -/

@[simp] theorem staff_wakeDrainer {ι α : Type} (crew : Crew) (f : Fanout Task ι α Nat)
    (handle : SlotHandle) : (wakeDrainer crew f handle w).staff = w.staff := by
  rw [wakeDrainer]
  split <;> rfl

variable {w} in
theorem staff_called {α : Type} {task : Task} {call : Script → Except NodeFault α × Script}
    {answer : Option (Except NodeFault α × UInt32)} {v : Crawler}
    (called : w.callNode task call = (answer, v)) : v.staff = w.staff := by
  have same := staff_callNode w task call
  rwa [called] at same

theorem staff_performFetch (worker : Nat) (job : FanJob FetchAsk Nat) :
    (performFetch worker job w).2.staff = w.staff := by
  rw [performFetch.eq_def]
  dsimp only
  split
  case h_1 =>
    split
    case h_1 called => exact staff_called called
    case h_2 called => exact (staff_respond _ _ _).trans (staff_called called)
  case h_2 =>
    split
    case h_1 called => exact staff_called called
    case h_2 called => exact (staff_respond _ _ _).trans (staff_called called)
  case h_3 =>
    split
    case h_1 called => exact staff_called called
    case h_2 called =>
      -- a slot that is filled is no part of the pool
      have same := staff_called called
      exact (staff_wakeDrainer _ _ _ _).trans same

theorem staff_performTrace (worker : Nat) (job : FanJob TraceAsk Nat) :
    (performTrace worker job w).2.staff = w.staff := by
  rw [performTrace.eq_def]
  dsimp only
  split
  case h_1 =>
    split
    case h_1 called => exact staff_called called
    case h_2 called => exact (staff_respond _ _ _).trans (staff_called called)
  case h_2 =>
    split
    case h_1 called => exact staff_called called
    case h_2 called => exact (staff_respond _ _ _).trans (staff_called called)
  case h_3 =>
    split
    case h_1 called => exact staff_called called
    case h_2 called =>
      -- a slot that is filled is no part of the pool
      have same := staff_called called
      exact (staff_wakeDrainer _ _ _ _).trans same

theorem staff_performFiles (job : FileErrand) : (performFiles job w).2.staff = w.staff :=
  staff_respond _ _ _

theorem staff_performRows (job : RowErrand) : (performRows job w).2.staff = w.staff := by
  rw [performRows]
  dsimp only
  split
  case h_1 => exact (staff_respond _ _ _).trans (staff_onStore w _)
  case h_2 => exact (staff_respond _ _ _).trans (staff_onStore w _)
  case h_3 => exact (staff_respond _ _ _).trans (staff_onStore w _)

theorem staff_performDownload (worker : Nat) (job : DownloadErrand) :
    (performDownload worker job w).2.staff = w.staff := by
  rw [performDownload]
  dsimp only
  split
  case h_1 => rfl
  case h_2 =>
    split
    case h_1 => exact staff_askFor w _ _ _
    case h_2 =>
      split
      case h_1 => rfl
      case h_2 => exact staff_downloadTold (w.forget _) _ _ _
    case h_3 =>
      split
      case h_1 => exact staff_respond _ _ _
      case h_2 => exact staff_respond _ _ _

/-- A turn on a job leaves the staff as it is. -/
theorem staff_perform (c : Crew) (worker : Nat) (job : c.Job) :
    ((crewed c).perform worker job w).2.staff = w.staff := by
  cases c with
  | fetcher => exact staff_performFetch w worker job
  | tracer => exact staff_performTrace w worker job
  | downloader => exact staff_performDownload w worker job
  | fileWriter => exact staff_performFiles w job
  | rowWriter => exact staff_performRows w job

/-! ## Callers, the clock and stand-ins -/

theorem staff_fireJob (job : Job) : (w.fireJob job).staff = w.staff := rfl

theorem staff_tickerTurn : w.tickerTurn.staff = w.staff := by
  rw [tickerTurn]
  split
  case h_1 => rfl
  case h_2 s _ =>
    split
    case isTrue =>
      have fired (jobs : List Job) (w : Crawler) : (jobs.foldl fireJob w).staff = w.staff := by
        induction jobs generalizing w with
        | nil => rfl
        | cons job rest ih => rw [List.foldl_cons, ih, staff_fireJob]
      exact (staff_sleep _ _ _).trans (fired _ _)
    case isFalse => rfl

theorem staff_awaitingTurn (ticket job : Nat) : (awaitingTurn ticket job w).staff = w.staff := by
  rw [awaitingTurn]
  split <;> rfl

theorem staff_postingTurn (ticket : Nat) : (postingTurn ticket w).staff = w.staff := by
  rw [postingTurn]
  split
  case h_1 => rfl
  case h_2 => exact staff_post _ _ _

theorem staff_answeringTurn (id : Nat) : (answeringTurn id w).staff = w.staff := by
  rw [answeringTurn]
  split
  case h_1 => rfl
  case h_2 =>
    dsimp only
    split
    case isTrue => exact staff_respond _ _ _
    case isFalse => rfl

/-! ## Calls to a pool -/

@[simp] theorem staff_wakeIdle (c : Crew) : ((crewed c).wakeIdle w).staff = w.staff := by
  rw [Crewed.wakeIdle]
  split <;> rfl

theorem crewed_pool (c : Crew) : (crewed c).pool w = w.pool c := by
  cases c <;> rfl

@[simp] theorem staff_withPool (c : Crew) (p : Pool Task c.Job) :
    ((crewed c).withPool p w).staff = w.staff.withPool c p := by
  rw [Staff.withPool, staff, staff, Staff.mk.injEq]
  refine ⟨?_, funext fun d => ?_, ?_⟩
  · cases c <;> rfl
  · cases c <;> cases d <;> rfl
  · cases c <;> rfl

theorem staff_send (c : Crew) (caller : Task) (items : List (PoolItem c.Job)) :
    ((crewed c).send caller items w).staff =
      w.staff.withPool c ((w.pool c).send caller items).2 := by
  rw [Crewed.send, crewed_pool]
  exact (staff_wakeIdle _ _).trans ((staff_wakeAll _ _).trans (staff_withPool w c _))

variable {w} in
/-- A caller sends behind another change of the pool. -/
theorem staff_send_of {v : Crawler} {c : Crew} {p : Pool Task c.Job}
    (changed : v.staff = w.staff.withPool c p) (caller : Task) (items : List (PoolItem c.Job)) :
    ((crewed c).send caller items v).staff = w.staff.withPool c (p.send caller items).2 := by
  have there : v.pool c = p := by
    rw [show v.pool c = v.staff.pool c from rfl, changed, Staff.pool_withPool]
  rw [staff_send, there, changed, Staff.withPool_withPool]

theorem staff_setWorkers (c : Crew) (count : UInt16) :
    ((crewed c).setWorkers count w).staff =
      w.staff.withPool c (((w.pool c).setWorkers count).2.2.send .dispatcher
        (List.replicate ((w.pool c).setWorkers count).2.1 .exit)).2 := by
  rw [Crewed.setWorkers, crewed_pool]
  generalize (w.pool c).setWorkers count = given
  obtain ⟨spawned, exits, p⟩ := given
  exact staff_send_of ((staff_wakeAll _ _).trans (staff_withPool w c p)) _ _

theorem staff_shutdown (c : Crew) :
    ((crewed c).shutdown w).staff =
      w.staff.withPool c ((w.pool c).shutdown.2.send .dispatcher
        (List.replicate (w.pool c).shutdown.1 .exit)).2 := by
  rw [Crewed.shutdown, crewed_pool]
  exact staff_send_of (staff_withPool w c _) _ _

/-! ## Workers -/

theorem staff_onPool (c : Crew) (f : Pool Task c.Job → Pool Task c.Job) :
    ((crewed c).onPool f w).staff = w.staff.withPool c (f (w.pool c)) := by
  rw [Crewed.onPool, crewed_pool, staff_withPool]

/-- A worker changes nothing but its pool, and makes nobody wait there. -/
theorem staff_turn (c : Crew) (worker : Nat) :
    ∃ p, ((crewed c).turn worker w).staff = w.staff.withPool c p ∧ (w.pool c).Eases p := by
  rw [Crewed.turn, crewed_pool]
  split
  case h_1 job _ =>
    have same := staff_perform w c worker job
    rw [Crewed.goOn]
    generalize (crewed c).perform worker job w = performed at same ⊢
    obtain ⟨stop, v⟩ := performed
    have same : v.staff = w.staff := same
    have pool : v.pool c = w.pool c := congrFun (congrArg Staff.pool same) c
    cases stop with
    | later =>
      refine ⟨w.pool c, ?_, .refl _⟩
      exact same.trans (Staff.withPool_self w.staff c).symm
    | done =>
      refine ⟨(w.pool c).finish worker, ?_, Pool.eases_finish _ _⟩
      refine (staff_wakeFirst _ _).trans ((staff_onPool v c _).trans ?_)
      rw [pool, same]
    | broken =>
      refine ⟨(w.pool c).lose worker, (staff_onPool v c _).trans ?_, Pool.eases_lose _ _⟩
      rw [pool, same]
  case h_2 =>
    have started := staff_onPool w c (·.start worker)
    have starts := (w.pool c).eases_start worker
    rw [Crewed.takeItem]
    generalize (crewed c).onPool (·.start worker) w = v at started ⊢
    have pool : (crewed c).pool v = (w.pool c).start worker := by
      rw [crewed_pool, show v.pool c = v.staff.pool c from rfl, started, Staff.pool_withPool]
    rw [pool]
    split
    case h_1 => exact ⟨_, started, starts⟩
    case h_2 item done p picks =>
      refine ⟨p, ?_, starts.trans (Pool.eases_pick? picks)⟩
      have taken : ((crewed c).wakeIdle (((crewed c).withPool p v).wakeAll done)).staff =
          w.staff.withPool c p := by
        rw [staff_wakeIdle, staff_wakeAll, staff_withPool, started, Staff.withPool_withPool]
      split
      case h_1 => exact taken
      case h_2 => exact taken

/-! ## Drainers -/

/-- A drainer puts jobs into its pool, or leaves it as it is. -/
theorem drain?_pool {ι α : Type} {crew : Crew} {id : Nat} {f f' : Fanout Task ι α Nat}
    {d : Drained Task Nat} (drains : drain? crew id f = some (d, f')) :
    ∃ items, f'.pool = (f.pool.send (.drainer crew id) items).2 := by
  rw [drain?] at drains
  split at drains
  case h_1 =>
    rw [Fanout.start?] at drains
    split at drains
    case h_1 => cases drains
    case h_2 =>
      split at drains
      case h_1 =>
        cases drains
        exact ⟨[], rfl⟩
      case h_2 =>
        cases drains
        exact ⟨_, rfl⟩
  case h_2 =>
    rw [Fanout.complete?] at drains
    split at drains
    case h_1 =>
      split at drains
      case isTrue => cases drains
      case isFalse =>
        cases drains
        exact ⟨[], rfl⟩
    case h_2 => cases drains

@[simp] theorem staff_drained (crew : Crew) (id : Nat) (ready : SlotHandle → Reply)
    (d : Drained Task Nat) : (drained crew id ready d w).staff = w.staff := by
  cases d with
  | started done => rfl
  | declined returns fault => exact staff_respond _ _ _
  | ready returns handle => exact staff_respond _ _ _

/-- A drainer changes nothing but its pool, where it is a caller. -/
theorem staff_drainerTurn (crew : Crew) (id : Nat) :
    ∃ (c : Crew) (items : List (PoolItem c.Job)), (drainerTurn crew id w).staff =
      w.staff.withPool c ((w.pool c).send (.drainer crew id) items).2 := by
  have rests : w.staff = w.staff.withPool .downloader ((w.pool .downloader).send
      (.drainer crew id) []).2 := (Staff.withPool_self w.staff _).symm
  cases crew with
  | fetcher =>
    rw [drainerTurn]
    split
    case h_1 => exact ⟨_, _, rests⟩
    case h_2 d f drains =>
      obtain ⟨items, pool⟩ := drain?_pool drains
      refine ⟨.fetcher, items, ?_⟩
      have moved : { w with fetcher := f }.staff = w.staff.withPool .fetcher f.pool :=
        staff_withPool w .fetcher f.pool
      exact (staff_wakeIdle _ .fetcher).trans ((staff_drained _ _ _ _ _).trans (pool ▸ moved))
  | tracer =>
    rw [drainerTurn]
    split
    case h_1 => exact ⟨_, _, rests⟩
    case h_2 d f drains =>
      obtain ⟨items, pool⟩ := drain?_pool drains
      refine ⟨.tracer, items, ?_⟩
      have moved : { w with tracer := f }.staff = w.staff.withPool .tracer f.pool :=
        staff_withPool w .tracer f.pool
      exact (staff_wakeIdle _ .tracer).trans ((staff_drained _ _ _ _ _).trans (pool ▸ moved))
  | downloader => exact ⟨_, _, rests⟩
  | fileWriter => exact ⟨_, _, rests⟩
  | rowWriter => exact ⟨_, _, rests⟩

/-! ## Index runs -/

/-- An index run that is over lets the next one in. -/
theorem staff_indexOver (returns : Option Nat) (result : Except CrawlFault BatchReport) :
    (indexOver returns result w).staff = { w.staff with indexer := w.indexer.finish } := by
  rw [indexOver]
  dsimp only
  split
  case isTrue =>
    exact (staff_post _ _ _).trans ((staff_newTicket _).trans (staff_respond _ _ _))
  case isFalse => exact staff_respond _ _ _

/-- An index run that broke off lets the next one in. -/
theorem staff_indexBroken (returns : Option Nat) :
    (indexBroken returns w).staff = { w.staff with indexer := w.indexer.finish } :=
  staff_respond _ _ _

variable {w} in
theorem staff_keep {v : Crawler} (same : v.staff = w.staff) (run : IndexErrand) :
    { v with indexer := { v.indexer with run := some run } }.staff =
      { w.staff with indexer := { w.indexer with run := some run } } := by
  have indexer : v.indexer = w.indexer := congrArg Staff.indexer same
  show { v.staff with indexer := { v.indexer with run := some run } } = _
  rw [same, indexer]

/-- A turn of the active index run: there is none, it goes on, or it ends or breaks off. -/
theorem staff_indexingTurn : w.indexingTurn.staff = w.staff ∨
    (w.indexer.isActive ∧ ∃ run, w.indexingTurn.staff =
      { w.staff with indexer := { w.indexer with run := some run } }) ∨
    (w.indexer.isActive ∧ w.indexingTurn.staff = { w.staff with indexer := w.indexer.finish }) := by
  rw [indexingTurn]
  dsimp only
  split
  case h_1 => exact .inl rfl
  case h_2 run active =>
    have isActive : w.indexer.isActive = true := by rw [Indexer.isActive, active]; rfl
    split
    case h_1 => exact .inr (.inl ⟨isActive, _, rfl⟩)
    case h_2 phase _ =>
      split
      case h_1 => exact .inr (.inr ⟨isActive, staff_indexOver w _ _⟩)
      case h_2 => exact .inr (.inr ⟨isActive, staff_indexBroken w _⟩)
      case h_3 command _ _ =>
        have asked := staff_askFor w .indexing Crew.fetcher.serviceName command
        exact .inr (.inl ⟨isActive, _, staff_keep asked _⟩)
      case h_4 command ticket _ _ =>
        split
        case h_1 => exact .inl rfl
        case h_2 outcome _ =>
          have told := staff_indexTold (w.forget ticket) phase command.name
            (replyOf Crew.fetcher.serviceName command.name outcome)
          exact .inr (.inl ⟨isActive, _, staff_keep (told.trans (staff_forget w ticket)) _⟩)

/-! ## Calls of the dispatcher -/

theorem crewNamed?_serviceName (c : Crew) : crewNamed? c.serviceName = some c := by
  cases c <;> decide

theorem crewNamed?_eq_none {name : String} (other : ∀ c : Crew, name ≠ c.serviceName) :
    crewNamed? name = none := by
  refine List.find?_eq_none.mpr fun c _ => ?_
  rw [beq_iff_eq]
  exact fun same => other c same.symm

/-- A range of blocks is queued before the pool of its crew. -/
theorem staff_enqueued {ι α : Type} (crew : Crew) (r : RangeRequest Nat) (f : Fanout Task ι α Nat)
    (put : Fanout Task ι α Nat → Crawler → Crawler)
    (keeps : ∀ f', f'.pool = f.pool → (put f' w).staff = w.staff) :
    (enqueued crew r f put w).staff = w.staff := by
  rw [enqueued, Fanout.enqueue?]
  cases f.queue.accept? r with
  | none => exact staff_respond _ _ _
  | some accepted => exact (staff_wakeAll _ _).trans (keeps _ rfl)

/-- What a message makes of a pool: the items of `load`, from the dispatcher. -/
def Hires (c : Crew) (command : Command) (v : Crawler) : Prop :=
  ∃ items : List (PoolItem c.Job), items.length = (if c.hires command then 1 else 0) ∧
    v.staff = w.staff.withPool c ((w.pool c).send .dispatcher items).2

variable {w} in
theorem hires_of_staff {c : Crew} {command : Command} {v : Crawler}
    (not : c.hires command = false) (same : v.staff = w.staff) : w.Hires c command v := by
  refine ⟨[], ?_, same.trans (Staff.withPool_self w.staff c).symm⟩
  rw [not]
  rfl

theorem hires_of_send {c : Crew} {command : Command} (hires : c.hires command = true) (job : c.Job) :
    w.Hires c command ((crewed c).send .dispatcher [.job job] w) := by
  refine ⟨[.job job], ?_, staff_send w c .dispatcher _⟩
  rw [hires]
  rfl

theorem executeFetch_hires (e : Envelope) : w.Hires .fetcher e.command (w.executeFetch e) := by
  have range (id : String) (numbers : List UInt64) (returns : Option Nat) :
      (enqueued .fetcher ⟨id, numbers, returns⟩ w.fetcher (fun f w => { w with fetcher := f })
        w).staff = w.staff := by
    refine staff_enqueued w _ _ _ _ fun f same => ?_
    have moved : { w with fetcher := f }.staff = w.staff.withPool .fetcher f.pool :=
      staff_withPool w .fetcher f.pool
    rw [moved, same]
    exact Staff.withPool_self w.staff .fetcher
  obtain ⟨service, command, returns⟩ := e
  cases command with
  | getBlock number =>
    exact w.hires_of_send (c := .fetcher) rfl (.single (.block number) returns)
  | getHead => exact w.hires_of_send (c := .fetcher) rfl (.single .head returns)
  | getBlocks id numbers => exact hires_of_staff rfl (range id numbers returns)
  | getRange id first last => exact hires_of_staff rfl (range id _ returns)
  | _ => exact hires_of_staff rfl (staff_decline w _ _ _)

theorem executeTrace_hires (e : Envelope) : w.Hires .tracer e.command (w.executeTrace e) := by
  have range (id : String) (numbers : List UInt64) (returns : Option Nat) :
      (enqueued .tracer ⟨id, numbers, returns⟩ w.tracer (fun f w => { w with tracer := f })
        w).staff = w.staff := by
    refine staff_enqueued w _ _ _ _ fun f same => ?_
    have moved : { w with tracer := f }.staff = w.staff.withPool .tracer f.pool :=
      staff_withPool w .tracer f.pool
    rw [moved, same]
    exact Staff.withPool_self w.staff .tracer
  obtain ⟨service, command, returns⟩ := e
  cases command with
  | traceBlock number =>
    exact w.hires_of_send (c := .tracer) rfl (.single (.block number) returns)
  | traceTransaction hash =>
    exact w.hires_of_send (c := .tracer) rfl (.single (.transaction hash) returns)
  | traceRange id first last => exact hires_of_staff rfl (range id _ returns)
  | _ => exact hires_of_staff rfl (staff_decline w _ _ _)

theorem executeDownload_hires (e : Envelope) :
    w.Hires .downloader e.command (w.executeDownload e) := by
  obtain ⟨service, command, returns⟩ := e
  cases command with
  | downloadBlocks order => exact w.hires_of_send (c := .downloader) rfl ⟨.blocks, order, returns⟩
  | downloadTraces order => exact w.hires_of_send (c := .downloader) rfl ⟨.traces, order, returns⟩
  | _ => exact hires_of_staff rfl (staff_decline w _ _ _)

theorem executeFiles_hires (e : Envelope) :
    w.Hires .fileWriter e.command (w.executeFiles e) := by
  obtain ⟨service, command, returns⟩ := e
  cases command with
  | writeBlockFiles root items =>
    exact w.hires_of_send (c := .fileWriter) rfl ⟨blocksDirectory, root, items, returns⟩
  | writeTraceFiles root items =>
    exact w.hires_of_send (c := .fileWriter) rfl ⟨tracesDirectory, root, items, returns⟩
  | _ => exact hires_of_staff rfl (staff_decline w _ _ _)

theorem executeRows_hires (e : Envelope) : w.Hires .rowWriter e.command (w.executeRows e) := by
  obtain ⟨service, command, returns⟩ := e
  cases command with
  | writeBlocks blocks => exact w.hires_of_send (c := .rowWriter) rfl ⟨blocks, returns⟩
  | _ => exact hires_of_staff rfl (staff_decline w _ _ _)

/-- The indexer lets a run in, or leaves the staff as it is. -/
theorem staff_executeIndex (e : Envelope) :
    ∃ i, (w.executeIndex e).staff = { w.staff with indexer := i } ∧ w.indexer.Moves i := by
  obtain ⟨service, command, returns⟩ := e
  cases command with
  | index order =>
    rw [executeIndex]
    dsimp only
    split
    case h_1 accepted => exact ⟨_, rfl, .accept _ accepted⟩
    case h_2 => exact ⟨w.indexer, staff_respond _ _ _, .stay⟩
  | _ => exact ⟨w.indexer, staff_decline w _ _ _, .stay⟩

theorem staff_executeSchedule (e : Envelope) : (w.executeSchedule e).staff = w.staff := by
  rw [executeSchedule]
  split
  case h_1 => rfl
  case h_2 => exact staff_respond _ _ _

section NoStandIns

variable (none : w.standIns = [])

include none

theorem standIn?_eq_none (name : String) : w.standIn? name = Option.none := by
  rw [standIn?, none]
  rfl

/-- A call to a crew puts its items into the pool of the crew, and changes nothing else. -/
theorem makeCall_crew {call : ServiceCall} {c : Crew} (named : call.service = c.serviceName) :
    ∃ p, (w.makeCall call).staff = w.staff.withPool c p ∧
      (w.pool c).Gets .dispatcher (call.load (w.pool c)) p := by
  cases call with
  | execute e =>
    have named : e.service = c.serviceName := named
    have hired : w.Hires c e.command (w.execute e) := by
      rw [execute, standIn?_eq_none w none, named, crewNamed?_serviceName]
      cases c with
      | fetcher => exact executeFetch_hires w e
      | tracer => exact executeTrace_hires w e
      | downloader => exact executeDownload_hires w e
      | fileWriter => exact executeFiles_hires w e
      | rowWriter => exact executeRows_hires w e
    obtain ⟨items, length, staff⟩ := hired
    refine ⟨_, staff, ?_⟩
    rw [ServiceCall.load, ← length]
    exact Pool.gets_send _ _ _
  | scale service count =>
    have named : service = c.serviceName := named
    have scaled : w.scale service count = (crewed c).setWorkers count w := by
      rw [scale, standIn?_eq_none w none, named, crewNamed?_serviceName]
      cases c <;> rfl
    refine ⟨_, (congrArg staff scaled).trans (staff_setWorkers w c count), ?_⟩
    exact Pool.gets_setWorkers _ _ _
  | shutdown service =>
    have named : service = c.serviceName := named
    have shut : w.shutdownService service = (crewed c).shutdown w := by
      rw [shutdownService, standIn?_eq_none w none, named, crewNamed?_serviceName]
      cases c <;> rfl
    refine ⟨_, (congrArg staff shut).trans (staff_shutdown w c), ?_⟩
    exact Pool.gets_shutdown _ _

/-- A call to another service leaves all pools as they are. -/
theorem makeCall_other {call : ServiceCall} (other : ∀ c : Crew, call.service ≠ c.serviceName) :
    ∃ i, (w.makeCall call).staff = { w.staff with indexer := i } ∧ w.indexer.Moves i := by
  have scaled (service : String) (count : UInt16) (other : ∀ c : Crew, service ≠ c.serviceName) :
      ∃ i, (w.scale service count).staff = { w.staff with indexer := i } ∧ w.indexer.Moves i := by
    rw [scale, standIn?_eq_none w none, crewNamed?_eq_none other]
    dsimp only
    split
    case isTrue => exact ⟨_, rfl, .scale count⟩
    case isFalse => exact ⟨w.indexer, rfl, .stay⟩
  cases call with
  | execute e =>
    have other : ∀ c : Crew, e.service ≠ c.serviceName := other
    rw [makeCall, execute, standIn?_eq_none w none, crewNamed?_eq_none other]
    dsimp only
    split
    case isTrue => exact staff_executeIndex w e
    case isFalse => exact ⟨w.indexer, staff_executeSchedule w e, .stay⟩
  | scale service count => exact scaled service count other
  | shutdown service =>
    have other : ∀ c : Crew, service ≠ c.serviceName := other
    rw [makeCall, shutdownService, standIn?_eq_none w none, crewNamed?_eq_none other]
    exact scaled service 0 other

end NoStandIns

end Frame

end Crawler

end ChainIndex
