import ChainIndex.Bus
import ChainIndex.Node.Script
import ChainIndex.Run.Download
import ChainIndex.Run.Index
import ChainIndex.Schedule
import ChainIndex.Settings
import ChainIndex.Store.Location
import ChainIndex.Work.Agenda
import ChainIndex.Work.Fanout

/-!
# The state of a crawler

A crawler is one value: the bus, the services behind it, the node, the store and the
files, together with the agenda of the tasks that run.

Six services do the work.  The fetcher and the tracer are fan-outs, the downloader
and the two writers are pools, and the indexer lets one run in at a time.  A schedule
may be there as a seventh.  Stand-ins are services that note what they are told and
answer in a set manner, after a set delay.

A caller of the bus holds a ticket.  `outcomes` are what tickets have come to, and
`listeners` the tasks that go on with a ticket once it has come to something.
-/

namespace ChainIndex

/-! ## Tasks -/

/-- The services with workers. -/
inductive Crew where
  /-- The workers that fetch blocks. -/
  | fetcher
  /-- The workers that trace blocks. -/
  | tracer
  /-- The workers that download. -/
  | downloader
  /-- The workers that write files. -/
  | fileWriter
  /-- The workers that write rows. -/
  | rowWriter
deriving DecidableEq, Repr, Inhabited

/-- The name of a service with workers on the bus. -/
def Crew.serviceName : Crew → String
  | .fetcher => "BlockFetcher"
  | .tracer => "BlockTracer"
  | .downloader => "Downloader"
  | .fileWriter => "FsWriter"
  | .rowWriter => "DbWriter"

/-- What runs. -/
inductive Task where
  /-- The dispatcher of the bus. -/
  | dispatcher
  /-- A worker. -/
  | worker (crew : Crew) (id : Nat)
  /-- The drainer of the requests to the fetcher or the tracer. -/
  | drainer (crew : Crew) (id : Nat)
  /-- The active index run. -/
  | indexing
  /-- The clock of the schedule. -/
  | ticker
  /-- A caller that brings a message to the bus. -/
  | posting (ticket : Nat)
  /-- A job of the schedule that waits for a reply. -/
  | awaiting (ticket : Nat) (job : Nat)
  /-- A stand-in that answers. -/
  | answering (id : Nat)
deriving DecidableEq, Repr, Inhabited

/-! ## Orders to the workers -/

/-- A single question to the fetcher. -/
inductive FetchAsk where
  /-- The block with a number. -/
  | block (number : UInt64)
  /-- The number of the newest block. -/
  | head
deriving DecidableEq, Repr, Inhabited

/-- A single question to the tracer. -/
inductive TraceAsk where
  /-- The traces of a block. -/
  | block (number : UInt64)
  /-- The trace of a transaction. -/
  | transaction (hash : String)
deriving DecidableEq, Repr, Inhabited

/-- An order to a worker of the downloader. -/
structure DownloadErrand where
  /-- What is downloaded. -/
  kind : DownloadKind
  /-- What was ordered. -/
  order : DownloadOrder
  /-- The ticket of the caller. -/
  returns : Option Nat
deriving Repr, Inhabited

/-- An order to a worker that writes files. -/
structure FileErrand where
  /-- The directory below the root. -/
  directory : String
  /-- The root. -/
  root : String
  /-- The texts, each with its number. -/
  items : List (UInt64 × String)
  /-- The ticket of the caller. -/
  returns : Option Nat
deriving Repr, Inhabited

/-- An order to a worker that writes rows. -/
structure RowErrand where
  /-- The blocks. -/
  blocks : List Block
  /-- The ticket of the caller. -/
  returns : Option Nat
deriving Repr, Inhabited

/-- An index run, and who ordered it. -/
structure IndexErrand where
  /-- What was ordered. -/
  order : IndexOrder
  /-- The ticket of the caller. -/
  returns : Option Nat
  /-- What the run waits for, none before it started. -/
  phase : Option IndexPhase := none
  /-- The ticket of its question to the bus. -/
  waiting : Option Nat := none
deriving Inhabited

/-- A download run of a worker. -/
structure DownloadProgress where
  /-- What the run waits for. -/
  phase : DownloadPhase
  /-- The number of the run. -/
  run : Nat
  /-- The ticket of its question to the bus. -/
  waiting : Option Nat := none
deriving Inhabited

/-! ## Stand-ins -/

/-- How a stand-in answers. -/
inductive Manner where
  /-- It acknowledges. -/
  | acknowledge
  /-- It declines. -/
  | reject
  /-- It fails. -/
  | fail
  /-- It gives a number. -/
  | number
  /-- It drops the message. -/
  | mute
deriving DecidableEq, Repr, Inhabited

/-- What the caller of a stand-in learns. -/
def Manner.outcome : Manner → Outcome
  | .acknowledge => .replied .ack
  | .reject => .replied (.rejected "busy")
  | .fail => .replied (.failed "broken")
  | .number => .replied (.head ⟨some 7, none⟩)
  | .mute => .dropped

/-- A service that notes what it is told and answers in a set manner. -/
structure StandIn where
  /-- Its name on the bus. -/
  name : String
  /-- How it answers. -/
  manner : Manner
  /-- How long it takes to answer, in milliseconds. -/
  delay : Nat
  /-- The workers of the last scale call. -/
  workers : UInt16 := 0
deriving Repr, Inhabited

/-- What a stand-in was told, and when. -/
structure StandInNote where
  /-- The time. -/
  time : Nat
  /-- The stand-in. -/
  service : String
  /-- The message. -/
  command : Command
deriving Repr, Inhabited

/-- A message that a stand-in has not answered. -/
structure StandInReply where
  /-- The number of the reply. -/
  id : Nat
  /-- How it is answered. -/
  manner : Manner
  /-- How long it takes from now on. -/
  delay : Nat
  /-- The ticket of the caller. -/
  returns : Option Nat
deriving Repr, Inhabited

/-! ## The crawler -/

/-- The most items of the queue of a pool. -/
def poolCapacity : Nat := 1024

/-- A crawler. -/
structure Crawler where
  /-- The clock and the tasks. -/
  agenda : Agenda Task := {}
  /-- The settings. -/
  settings : Settings := {}
  /-- The node. -/
  node : Script := {}
  /-- The store. -/
  store : Store := .memory {}
  /-- The files. -/
  files : FileTree := {}
  /-- The bus. -/
  bus : Bus := {}
  /-- The tickets given out. -/
  tickets : Nat := 0
  /-- What tickets have come to. -/
  outcomes : List (Nat × Outcome) := []
  /-- The tasks that go on with a ticket. -/
  listeners : List (Nat × Task) := []
  /-- The messages of callers that have not reached the bus. -/
  posts : List (Nat × Envelope) := []
  /-- The fetcher. -/
  fetcher : Fanout Task FetchAsk BlockResult Nat := Fanout.ofCapacity poolCapacity
  /-- The tracer. -/
  tracer : Fanout Task TraceAsk TraceResult Nat := Fanout.ofCapacity poolCapacity
  /-- The indexer. -/
  indexer : Indexer IndexErrand := {}
  /-- The downloader. -/
  downloader : Pool Task DownloadErrand := Pool.ofCapacity poolCapacity
  /-- The writer of files. -/
  fileWriter : Pool Task FileErrand := Pool.ofCapacity poolCapacity
  /-- The writer of rows. -/
  rowWriter : Pool Task RowErrand := Pool.ofCapacity poolCapacity
  /-- Where the workers stand that make a call again. -/
  attempts : List (Task × Retry.Progress) := []
  /-- Where the workers of the downloader stand. -/
  downloads : List (Nat × DownloadProgress) := []
  /-- The download runs started. -/
  downloadRuns : Nat := 0
  /-- The schedule. -/
  schedule : Option Schedule := none
  /-- The schedule was started by this crawler, which has not been shut down since. -/
  ownsSchedule : Bool := false
  /-- The stand-ins. -/
  standIns : List StandIn := []
  /-- The messages that stand-ins have not answered. -/
  standInReplies : List StandInReply := []
  /-- The messages that stand-ins got so far. -/
  standInMessages : Nat := 0
  /-- What stand-ins were told, newest first. -/
  notes : List StandInNote := []
deriving Inhabited

namespace Crawler

/-! ## Tasks and tickets -/

/-- A task can run. -/
def wake (w : Crawler) (task : Task) : Crawler := { w with agenda := w.agenda.wake task }

/-- Tasks can run. -/
def wakeAll (w : Crawler) (tasks : List Task) : Crawler := { w with agenda := w.agenda.wakeAll tasks }

/-- A task goes on at once. -/
def wakeFirst (w : Crawler) (task : Task) : Crawler := { w with agenda := w.agenda.wakeFirst task }

/-- A task sleeps. -/
def sleep (w : Crawler) (delay : Nat) (task : Task) : Crawler :=
  { w with agenda := w.agenda.sleep delay task }

/-- A new ticket. -/
def newTicket (w : Crawler) : Nat × Crawler := (w.tickets, { w with tickets := w.tickets + 1 })

/-- What a ticket has come to. -/
def outcome? (w : Crawler) (ticket : Nat) : Option Outcome :=
  (w.outcomes.find? fun o => o.1 = ticket).map (·.2)

/-- Forget what a ticket has come to. -/
def forget (w : Crawler) (ticket : Nat) : Crawler :=
  { w with outcomes := w.outcomes.filter fun o => o.1 ≠ ticket }

/-- A ticket comes to something, and the tasks that wait for it can run. -/
def announce (w : Crawler) (ticket : Nat) (outcome : Outcome) : Crawler :=
  let tasks := (w.listeners.filter fun l => l.1 = ticket).map (·.2)
  { w with
    outcomes := (ticket, outcome) :: w.outcomes
    listeners := w.listeners.filter fun l => l.1 ≠ ticket }.wakeAll tasks

/-- Tickets come to something. -/
def announceAll (w : Crawler) (outcomes : List (Nat × Outcome)) : Crawler :=
  outcomes.foldl (fun w (ticket, outcome) => w.announce ticket outcome) w

/-- The caller that waits for a reply gets one. -/
def respond (w : Crawler) (returns : Option Nat) (outcome : Outcome) : Crawler :=
  w.announceAll (Bus.answer returns outcome)

/-- The caller that waits for a reply is told that a service declines. -/
def decline (w : Crawler) (service : String) (command : Command) (returns : Option Nat) : Crawler :=
  w.respond returns
    (.replied (.rejected (service ++ " does not handle '" ++ command.name ++ "'")))

/-! ## The bus -/

/-- The dispatcher can run, where there is something for it. -/
def wakeDispatcher (w : Crawler) : Crawler :=
  if w.bus.running && w.bus.desk = .free && !w.bus.mailbox.isEmpty then w.wake .dispatcher else w

/-- A message with a ticket comes to the bus.  Where the bus has exited, it is refused. -/
def post (w : Crawler) (ticket : Nat) (e : Envelope) : Crawler :=
  match w.bus.post? ticket e with
  | some bus => { w with bus := bus }.wakeDispatcher
  | none => w.announce ticket .refused

/-- A task asks a service something and goes on with the ticket. -/
def askFor (w : Crawler) (task : Task) (service : String) (command : Command) : Nat × Crawler :=
  let (ticket, w) := w.newTicket
  let w := { w with listeners := (ticket, task) :: w.listeners }
  (ticket, w.post ticket ⟨service, command, some ticket⟩)

/-- The reply that a ticket has come to, or why there is none. -/
def replyOf (service : String) (command : String) : Outcome → Except BusFault Reply
  | .replied reply => .ok reply
  | .dropped => .error (.noReply service command)
  | .refused => .error .closed

/-! ## Calls to the node -/

/-- A call of a worker to the node.  The result and the retries used up are none where
the worker will make the call again. -/
def callNode {α : Type} (w : Crawler) (task : Task) (call : Script → Except NodeFault α × Script) :
    Option (Except NodeFault α × UInt32) × Crawler :=
  let progress := ((w.attempts.find? fun a => a.1 = task).map (·.2)).getD {}
  let (result, node) := call w.node
  let w := { w with node := node, attempts := w.attempts.filter fun a => a.1 ≠ task }
  match result with
  | .ok a => (some (.ok a, progress.retries), w)
  | .error fault =>
    match w.settings.retry.next? progress fault with
    | none => (some (.error fault, progress.retries), w)
    | some progress =>
      let w := { w with attempts := (task, progress) :: w.attempts }
      let gap := w.settings.retry.gapBounds.1.toNat
      (none, if gap = 0 then w.wakeFirst task else w.sleep gap task)

/-- An action on the store. -/
def onStore {α : Type} (w : Crawler) (action : StateM Store α) : α × Crawler :=
  let (a, store) := action w.store
  (a, { w with store := store })

end Crawler

end ChainIndex
