import ChainIndex.Crawler.Crews

/-!
# The turns of a crawler

What each task does in one turn: the dispatcher handles a message, a drainer takes or
answers a request, an index run goes on, the clock of the schedule ticks, a caller
brings its message, a stand-in answers, or a worker works.

A turn looks at the state to find out whether what the task waits for is there.  So a
turn too many does nothing.
-/

namespace ChainIndex

namespace Crawler

/-! ## Services -/

/-- A stand-in with a name. -/
def standIn? (w : Crawler) (name : String) : Option StandIn := w.standIns.find? fun s => s.name == name

/-- The stand-in with a name changes. -/
def onStandIn (w : Crawler) (name : String) (f : StandIn → StandIn) : Crawler :=
  { w with standIns := w.standIns.map fun s => if s.name == name then f s else s }

/-- A stand-in is told something. -/
def tellStandIn (w : Crawler) (s : StandIn) (e : Envelope) : Crawler :=
  let id := w.standInMessages
  { w with
    standInMessages := id + 1
    standInReplies := ⟨id, s.manner, s.delay, e.returns⟩ :: w.standInReplies
    notes := ⟨w.agenda.now, s.name, e.command⟩ :: w.notes }.wake (.answering id)

/-- A service with a range of blocks to work on queues the request, or rejects it. -/
def enqueued {ι α : Type} (crew : Crew) (r : RangeRequest Nat) (f : Fanout Task ι α Nat)
    (put : Fanout Task ι α Nat → Crawler → Crawler) (w : Crawler) : Crawler :=
  match f.enqueue? r with
  | none => w.respond r.returns (.replied (.rejected (RangeQueue.rejection r.id)))
  | some (_, f) => (put f w).wakeAll (f.queue.drainers.map (.drainer crew))

/-- The fetcher gets a message. -/
def executeFetch (w : Crawler) (e : Envelope) : Crawler :=
  let ask := fun question => fetchCrew.send .dispatcher [.job (.single question e.returns)] w
  let range := fun id numbers =>
    enqueued .fetcher ⟨id, numbers, e.returns⟩ w.fetcher (fun f w => { w with fetcher := f }) w
  match e.command with
  | .getBlock number => ask (.block number)
  | .getHead => ask .head
  | .getBlocks id numbers => range id numbers
  | .getRange id first last => range id (Window.numbers first last)
  | other => w.decline e.service other e.returns

/-- The tracer gets a message. -/
def executeTrace (w : Crawler) (e : Envelope) : Crawler :=
  let ask := fun question => traceCrew.send .dispatcher [.job (.single question e.returns)] w
  match e.command with
  | .traceBlock number => ask (.block number)
  | .traceTransaction hash => ask (.transaction hash)
  | .traceRange id first last =>
    enqueued .tracer ⟨id, Window.numbers first last, e.returns⟩ w.tracer (fun f w => { w with tracer := f }) w
  | other => w.decline e.service other e.returns

/-- The indexer gets a message. -/
def executeIndex (w : Crawler) (e : Envelope) : Crawler :=
  match e.command with
  | .index order =>
    match w.indexer.accept { order := order, returns := e.returns } with
    | .ok indexer => { w with indexer := indexer }.wake .indexing
    | .error reason => w.respond e.returns (.replied (.rejected reason))
  | other => w.decline e.service other e.returns

/-- The downloader gets a message. -/
def executeDownload (w : Crawler) (e : Envelope) : Crawler :=
  match e.command with
  | .downloadBlocks order => downloadCrew.send .dispatcher [.job ⟨.blocks, order, e.returns⟩] w
  | .downloadTraces order => downloadCrew.send .dispatcher [.job ⟨.traces, order, e.returns⟩] w
  | other => w.decline e.service other e.returns

/-- The writer of files gets a message. -/
def executeFiles (w : Crawler) (e : Envelope) : Crawler :=
  match e.command with
  | .writeBlockFiles root items =>
    fileCrew.send .dispatcher [.job ⟨blocksDirectory, root, items, e.returns⟩] w
  | .writeTraceFiles root items =>
    fileCrew.send .dispatcher [.job ⟨tracesDirectory, root, items, e.returns⟩] w
  | other => w.decline e.service other e.returns

/-- The writer of rows gets a message. -/
def executeRows (w : Crawler) (e : Envelope) : Crawler :=
  match e.command with
  | .writeBlocks blocks => rowCrew.send .dispatcher [.job ⟨blocks, e.returns⟩] w
  | other => w.decline e.service other e.returns

/-- The schedule gets a message. -/
def executeSchedule (w : Crawler) (e : Envelope) : Crawler :=
  match w.schedule with
  | none => w
  | some s =>
    let (reply, s) := s.execute e.command
    { w with schedule := some s }.respond e.returns (.replied reply)

/-- The crew with a name on the bus. -/
def crewNamed? (name : String) : Option Crew :=
  [Crew.fetcher, .tracer, .downloader, .fileWriter, .rowWriter].find? fun c => c.serviceName == name

/-- A registered service gets a message. -/
def execute (w : Crawler) (e : Envelope) : Crawler :=
  match w.standIn? e.service, crewNamed? e.service with
  | some s, _ => w.tellStandIn s e
  | none, some .fetcher => w.executeFetch e
  | none, some .tracer => w.executeTrace e
  | none, some .downloader => w.executeDownload e
  | none, some .fileWriter => w.executeFiles e
  | none, some .rowWriter => w.executeRows e
  | none, none =>
    if e.service = Indexer.serviceName then w.executeIndex e else w.executeSchedule e

/-- A registered service is scaled. -/
def scale (w : Crawler) (service : String) (count : UInt16) : Crawler :=
  match w.standIn? service, crewNamed? service with
  | some _, _ => w.onStandIn service fun s => { s with workers := count }
  | none, some .fetcher => fetchCrew.setWorkers count w
  | none, some .tracer => traceCrew.setWorkers count w
  | none, some .downloader => downloadCrew.setWorkers count w
  | none, some .fileWriter => fileCrew.setWorkers count w
  | none, some .rowWriter => rowCrew.setWorkers count w
  | none, none =>
    if service = Indexer.serviceName then { w with indexer := { w.indexer with workers := count } }
    else { w with schedule := w.schedule.map (·.setWorkers count) }

/-- A registered service is shut down.  For a service without a pool this is to scale it
to zero. -/
def shutdownService (w : Crawler) (service : String) : Crawler :=
  match w.standIn? service, crewNamed? service with
  | none, some .fetcher => fetchCrew.shutdown w
  | none, some .tracer => traceCrew.shutdown w
  | none, some .downloader => downloadCrew.shutdown w
  | none, some .fileWriter => fileCrew.shutdown w
  | none, some .rowWriter => rowCrew.shutdown w
  | _, _ => w.scale service 0

/-- The workers of a registered service. -/
def workersOf (w : Crawler) (service : String) : UInt16 :=
  match w.standIn? service, crewNamed? service with
  | some s, _ => s.workers
  | none, some .fetcher => w.fetcher.pool.workers
  | none, some .tracer => w.tracer.pool.workers
  | none, some .downloader => w.downloader.workers
  | none, some .fileWriter => w.fileWriter.workers
  | none, some .rowWriter => w.rowWriter.workers
  | none, none =>
    if service = Indexer.serviceName then w.indexer.workers
    else if (w.schedule.map Schedule.isRunning).getD false then 1 else 0

/-! ## The dispatcher -/

/-- The dispatcher makes a call. -/
def makeCall (w : Crawler) (call : ServiceCall) : Crawler :=
  match call with
  | .execute e => w.execute e
  | .scale service count => w.scale service count
  | .shutdown service => w.shutdownService service

/-- A call of the dispatcher has not returned: it waits for room in a pool. -/
def isHeldUp (w : Crawler) : Bool :=
  w.fetcher.pool.isSending .dispatcher || w.tracer.pool.isSending .dispatcher
    || w.downloader.isSending .dispatcher || w.fileWriter.isSending .dispatcher
    || w.rowWriter.isSending .dispatcher

/-- One turn of the dispatcher: it takes a message and makes the calls, or ends them. -/
def dispatcherTurn (w : Crawler) : Crawler :=
  match w.bus.desk with
  | .free =>
    match w.bus.take? with
    | none => w
    | some (calls, outcomes, bus) =>
      let w := { w with bus := bus }.announceAll outcomes
      (calls.foldl makeCall w).wakeFirst .dispatcher
  | _ =>
    if w.isHeldUp then w
    else
      let (outcomes, bus) := w.bus.finish
      ({ w with bus := bus }.announceAll outcomes).wakeFirst .dispatcher

/-! ## Drainers -/

/-- What a drainer did to a request becomes known.  It goes on at once. -/
def drained (crew : Crew) (id : Nat) (ready : SlotHandle → Reply) (d : Drained Task Nat) (w : Crawler) :
    Crawler :=
  let w := w.wakeFirst (.drainer crew id)
  match d with
  | .started done => w.wakeAll (done.filter (· ≠ .drainer crew id))
  | .declined returns fault => w.respond returns (.replied (.rejected fault.message))
  | .ready returns handle => w.respond returns (.replied (ready handle))

/-- A drainer takes the next request, or answers the one that it is on. -/
def drain? {ι α : Type} (crew : Crew) (id : Nat) (f : Fanout Task ι α Nat) :
    Option (Drained Task Nat × Fanout Task ι α Nat) :=
  match f.queue.current? id with
  | none => f.start? id (.drainer crew id)
  | some _ => f.complete? id (.drainer crew id)

/-- One turn of a drainer. -/
def drainerTurn (crew : Crew) (id : Nat) (w : Crawler) : Crawler :=
  match crew with
  | .fetcher =>
    match drain? crew id w.fetcher with
    | none => w
    | some (d, f) => fetchCrew.wakeIdle (drained crew id .blocksReady d { w with fetcher := f })
  | .tracer =>
    match drain? crew id w.tracer with
    | none => w
    | some (d, f) => traceCrew.wakeIdle (drained crew id .tracesReady d { w with tracer := f })
  | _ => w

/-! ## Index runs -/

/-- How blocks are indexed. -/
def indexPlan (w : Crawler) : IndexPlan :=
  ⟨w.classifyOptions, w.settings.rewindDepth, w.settings.alignment⟩

/-- What an index run does next: it asks the fetcher something, or it is over.  Then it has a result,
unless it broke off. -/
def indexMove : IndexPhase → Command ⊕ Option (Except CrawlFault BatchReport)
  | .askHead _ => .inl .getHead
  | .askWindow run last => .inl (.getRange (IndexPhase.requestId run.next last) run.next last)
  | .ended result => .inr (some result)
  | .broken => .inr none

/-- The slots of a window from the reply that brings them. -/
def windowBlocks (command : String) (reply : Except BusFault Reply) (w : Crawler) :
    Except CrawlFault (List (Option BlockResult)) × Crawler :=
  match handleOf reply command with
  | .error fault => (.error fault, w)
  | .ok handle =>
    let (slots, w) := w.takeBlocks handle
    (slots.mapError CrawlFault.ofSlot, w)

/-- An index run with the reply to its question. -/
def indexTold (phase : IndexPhase) (command : String) (reply : Except BusFault Reply) (w : Crawler) :
    IndexPhase × Crawler :=
  match phase with
  | .askHead _ =>
    (phase.onHead w.indexPlan ((reply.bind fun r => r.headResult command).mapError CrawlFault.ofBus), w)
  | .askWindow .. =>
    let (slots, w) := windowBlocks command reply w
    w.onStore (phase.onSlots w.indexPlan slots)
  | .ended _ | .broken => (phase, w)

/-- An index run broke off: another one may begin, and its caller learns nothing. -/
def indexBroken (returns : Option Nat) (w : Crawler) : Crawler :=
  { w with indexer := w.indexer.finish }.respond returns .dropped

/-- An index run is over: its caller learns the result, and a fault of the store stops the
whole crawler. -/
def indexOver (returns : Option Nat) (result : Except CrawlFault BatchReport) (w : Crawler) : Crawler :=
  let w := { w with indexer := w.indexer.finish }.respond returns (.replied (IndexPhase.reply result))
  if IndexPhase.stopsCrawler result then
    let (ticket, w) := w.newTicket
    w.post ticket ⟨Bus.controller, .exit, none⟩
  else w

/-- One turn of the active index run: it starts, asks for what it needs, or goes on with
the answer. -/
def indexingTurn (w : Crawler) : Crawler :=
  let keep := fun (w : Crawler) (run : IndexErrand) => { w with indexer := { w.indexer with run := some run } }
  match w.indexer.run with
  | none => w
  | some run =>
    match run.phase with
    | none =>
      let (phase, w) := w.onStore (IndexPhase.start run.order)
      (keep w { run with phase := some phase }).wakeFirst .indexing
    | some phase =>
      match indexMove phase, run.waiting with
      | .inr (some result), _ => indexOver run.returns result w
      | .inr none, _ => indexBroken run.returns w
      | .inl command, none =>
        let (ticket, w) := w.askFor .indexing Crew.fetcher.serviceName command
        keep w { run with waiting := some ticket }
      | .inl command, some ticket =>
        match w.outcome? ticket with
        | none => w
        | some outcome =>
          let (phase, w) := indexTold phase command.name
            (replyOf Crew.fetcher.serviceName command.name outcome) (w.forget ticket)
          (keep w { run with phase := some phase, waiting := none }).wakeFirst .indexing

/-! ## The schedule -/

/-- A job of the schedule sends its message and waits for the reply. -/
def fireJob (w : Crawler) (job : Job) : Crawler :=
  let (ticket, w) := w.newTicket
  { w with
    posts := (ticket, ⟨job.service, job.command, some ticket⟩) :: w.posts
    listeners := (ticket, .awaiting ticket job.key) :: w.listeners }.wake (.posting ticket)

/-- One turn of the clock of the schedule. -/
def tickerTurn (w : Crawler) : Crawler :=
  match w.schedule with
  | none => w
  | some s =>
    if s.isRunning then
      let (jobs, s') := s.due w.agenda.now
      (jobs.foldl fireJob { w with schedule := some s' }).sleep s.tick .ticker
    else w

/-- The reply to a job of the schedule has come. -/
def awaitingTurn (ticket job : Nat) (w : Crawler) : Crawler :=
  match w.outcome? ticket with
  | none => w
  | some _ => { w with schedule := w.schedule.map fun s : Schedule => s.settle job }.forget ticket

/-! ## Callers and stand-ins -/

/-- A caller brings its message to the bus. -/
def postingTurn (ticket : Nat) (w : Crawler) : Crawler :=
  match w.posts.find? fun p => p.1 = ticket with
  | none => w
  | some (_, e) => { w with posts := w.posts.filter fun p => p.1 ≠ ticket }.post ticket e

/-- A stand-in answers, or sleeps first. -/
def answeringTurn (id : Nat) (w : Crawler) : Crawler :=
  match w.standInReplies.find? fun r => r.id = id with
  | none => w
  | some r =>
    let others := w.standInReplies.filter fun r => r.id ≠ id
    if r.delay = 0 then { w with standInReplies := others }.respond r.returns r.manner.outcome
    else
      { w with standInReplies := { r with delay := 0 } :: others }.sleep r.delay (.answering id)

/-! ## All tasks -/

/-- One turn of a worker. -/
def workerTurn (crew : Crew) (id : Nat) (w : Crawler) : Crawler :=
  match crew with
  | .fetcher => fetchCrew.turn id w
  | .tracer => traceCrew.turn id w
  | .downloader => downloadCrew.turn id w
  | .fileWriter => fileCrew.turn id w
  | .rowWriter => rowCrew.turn id w

/-- One turn of a task. -/
def run (task : Task) (w : Crawler) : Crawler :=
  match task with
  | .dispatcher => w.dispatcherTurn
  | .worker crew id => workerTurn crew id w
  | .drainer crew id => drainerTurn crew id w
  | .indexing => w.indexingTurn
  | .ticker => w.tickerTurn
  | .posting ticket => postingTurn ticket w
  | .awaiting ticket job => awaitingTurn ticket job w
  | .answering id => answeringTurn id w

/-- The tasks of a crawler, one at a time. -/
def machine : Machine Crawler Task where
  agenda := agenda
  withAgenda a w := { w with agenda := a }
  run := run

end Crawler

end ChainIndex
