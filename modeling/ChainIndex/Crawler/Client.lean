import ChainIndex.Crawler.Turn
import ChainIndex.Run.Benchmark

/-!
# Using a crawler

What someone outside does with a crawler: start it, ask a service, order an index run
or a download, start the schedule, let time pass, shut it down.

Someone who waits for an answer lets the tasks run until it is there.  After
`Machine.patience` they give up, and the answer is none.
-/

namespace ChainIndex

namespace Crawler

/-! ## Messages -/

/-- Bring a message to the bus, and whether it got in. -/
def tell (w : Crawler) (service : String) (command : Command) : Option (Except BusFault Unit) × Crawler :=
  let (ticket, w) := w.newTicket
  match w.bus.post? ticket ⟨service, command, none⟩ with
  | none => (some (.error .closed), w)
  | some bus =>
    let w := { w with bus := bus }.wakeDispatcher
    match machine.await (fun w => !w.bus.isSending ticket) w with
    | (w, false) => (none, { w with bus := w.bus.cancel ticket })
    | (w, true) =>
      match w.outcome? ticket with
      | some _ => (some (.error .closed), w.forget ticket)
      | none => (some (.ok ()), w)

/-- Wait for what a ticket comes to. -/
def waitFor (w : Crawler) (ticket : Nat) : Option Outcome × Crawler :=
  let (w, _) := machine.await (fun w => (w.outcome? ticket).isSome) w
  match w.outcome? ticket with
  | some outcome => (some outcome, w.forget ticket)
  | none => (none, { w with bus := w.bus.cancel ticket })

/-- Ask a service something and wait for the reply. -/
def ask (w : Crawler) (service : String) (command : Command) : Option (Except BusFault Reply) × Crawler :=
  let (ticket, w) := w.newTicket
  let (outcome, w) := (w.post ticket ⟨service, command, some ticket⟩).waitFor ticket
  (outcome.map (replyOf service command.name), w)

/-- The reply to a scale call. -/
def scaled (reply : Reply) : Except BusFault Unit :=
  match reply with
  | .ack => .ok ()
  | other => .error (other.unexpected "set_worker")

/-- Scale a service. -/
def setWorkers (w : Crawler) (service : String) (count : UInt16) : Option (Except BusFault Unit) × Crawler :=
  let (reply, w) := w.ask Bus.controller (.setWorkers service count)
  (reply.map fun r => r.bind scaled, w)

/-- Register a service. -/
def register (w : Crawler) (service : String) : Except BusFault Unit × Crawler :=
  match w.bus.register service with
  | .ok bus => (.ok (), { w with bus := bus })
  | .error fault => (.error fault, w)

/-- Register a stand-in. -/
def registerStandIn (w : Crawler) (s : StandIn) : Except BusFault Unit × Crawler :=
  match w.register s.name with
  | (.ok (), w) => (.ok (), { w with standIns := w.standIns ++ [s] })
  | refused => refused

/-- Start the dispatcher, once. -/
def startDispatcher (w : Crawler) : Crawler :=
  { w with bus := { w.bus with running := true } }.wakeDispatcher

/-- Wait until the bus has exited, and whether it did. -/
def waitExit (w : Crawler) : Bool × Crawler :=
  let (w, exited) := machine.await (fun w => w.bus.exited) w
  (exited, w)

/-! ## The whole crawler -/

/-- The services of a crawler and the workers that they start with, in order. -/
def services (s : Settings) : List (String × UInt16) := [
  (Crew.fetcher.serviceName, s.fetcherWorkers),
  (Crew.tracer.serviceName, s.tracerWorkers),
  (Indexer.serviceName, s.indexerWorkers),
  (Crew.downloader.serviceName, s.downloaderWorkers),
  (Crew.fileWriter.serviceName, s.fileWorkers),
  (Crew.rowWriter.serviceName, s.rowWorkers)]

/-- A crawler with all services registered and scaled. -/
def start (settings : Settings) (node : Script) (store : Store) (files : FileTree) : Crawler :=
  let w : Crawler := {
    settings := settings
    node := node
    store := store
    files := files
    bus := { services := (services settings).map (·.1) } }
  (services settings).foldl (fun w (service, count) => (w.setWorkers service count).2) w.startDispatcher

/-- The result of an order, from the reply to it. -/
def orderResult {α : Type} (take : Reply → Except BusFault α) (reply : Except BusFault Reply) :
    Except CrawlFault α := (reply.bind take).mapError CrawlFault.ofBus

/-- Order something from a service and wait for the result. -/
def order {α : Type} (w : Crawler) (service : String) (command : Command)
    (take : Reply → Except BusFault α) : Option (Except CrawlFault α) × Crawler :=
  let (reply, w) := w.ask service command
  (reply.map (orderResult take), w)

/-- Index blocks. -/
def index (w : Crawler) (o : IndexOrder) : Option (Except CrawlFault BatchReport) × Crawler :=
  w.order Indexer.serviceName (.index o) (·.batchReport "index")

/-- Order an index run without waiting for it.  The result is what the ticket comes to. -/
def orderIndex (w : Crawler) (o : IndexOrder) : Nat × Crawler :=
  let (ticket, w) := w.newTicket
  let e : Envelope := ⟨Indexer.serviceName, .index o, some ticket⟩
  (ticket, { w with posts := (ticket, e) :: w.posts }.wake (.posting ticket))

/-- Wait for the result of an index run that was ordered. -/
def joinIndex (w : Crawler) (ticket : Nat) : Option (Except CrawlFault BatchReport) × Crawler :=
  let (outcome, w) := w.waitFor ticket
  (outcome.map fun o => orderResult (·.batchReport "index") (replyOf Indexer.serviceName "index" o), w)

/-- Download blocks or traces. -/
def download (w : Crawler) (kind : DownloadKind) (o : DownloadOrder) :
    Option (Except CrawlFault DownloadReport) × Crawler :=
  let (command, name) := match kind with
    | .blocks => (Command.downloadBlocks o, "download_blocks")
    | .traces => (Command.downloadTraces o, "download_block_traces")
  w.order Crew.downloader.serviceName command (·.downloadReport name)

/-- Classify and store blocks from elsewhere. -/
def writeBlocks (w : Crawler) (blocks : List Block) : Option (Except CrawlFault BatchReport) × Crawler :=
  w.order Crew.rowWriter.serviceName (.writeBlocks blocks) (·.batchReport "write_blocks")

/-! ## Benchmarks -/

/-- The items of a window of a benchmark from the reply that brings them. -/
def windowItems (kind : DownloadKind) (command : String) (reply : Except BusFault Reply) (w : Crawler) :
    Except BenchmarkFault (List (Option UInt32)) × Crawler :=
  match reply.bind fun r => r.slotHandle command with
  | .error fault => (.error (.bus fault), w)
  | .ok handle =>
    match kind with
    | .blocks =>
      let (slots, w) := w.takeBlocks handle
      ((slots.map (·.map (·.bind BlockResult.came?))).mapError .slot, w)
    | .traces =>
      let (slots, w) := w.takeTraces handle
      ((slots.map (·.map (·.bind TraceResult.came?))).mapError .slot, w)

/-- Run a benchmark of at most so many windows. -/
def benchmarkWithin : Nat → Benchmark → Crawler → Option (Except BenchmarkFault Tally) × Crawler
  | 0, _, w => (none, w)
  | fuel + 1, b, w =>
    if b.isOver then (some (.ok b.tally), w)
    else
      match w.ask (crewOf b.kind).serviceName b.command with
      | (none, w) => (none, w)
      | (some reply, w) =>
        match windowItems b.kind b.command.name reply w with
        | (.ok items, w) =>
          match b.absorb? items with
          | some b => benchmarkWithin fuel b w
          | none => (some (.error .overflow), w)
        | (.error fault, w) => (some (.error fault), w)

/-- Run a benchmark. -/
def benchmark (w : Crawler) (b : Benchmark) : Option (Except BenchmarkFault Tally) × Crawler :=
  benchmarkWithin Machine.unbounded b w

/-! ## The schedule -/

/-- The name of the job that indexes again and again. -/
def indexJob : String := "index"

/-- Start the ticks of the schedule, once. -/
def startTicks (w : Crawler) : Crawler :=
  match w.schedule with
  | some s => if s.started then w else { w with schedule := some s.start }.wake .ticker
  | none => w

/-- A schedule with the job that indexes again and again. -/
def indexSchedule (w : Crawler) : Schedule :=
  let s := w.settings
  (Schedule.ofTick s.tick.toNat).addJob w.agenda.now indexJob s.indexInterval.toNat Indexer.serviceName
    (.index ⟨s.startBlock, s.endBlock, s.indexBatch, true⟩)

/-- Register a schedule that indexes again and again, and start its ticks.  A second call
changes nothing. -/
def startSchedule (w : Crawler) : Except CrawlFault Unit × Crawler :=
  if w.ownsSchedule then (.ok (), w)
  else
    match w.register Schedule.serviceName with
    | (.ok (), w) => (.ok (), { w with schedule := some w.indexSchedule, ownsSchedule := true }.startTicks)
    | (.error fault, w) => (.error (.ofBus fault), w)

/-! ## Letting go -/

/-- Stop every service and wait until the bus has exited, and whether it did. -/
def shutdown (w : Crawler) : Bool × Crawler :=
  let w := if w.ownsSchedule then
      { w with schedule := w.schedule.map Schedule.stop, ownsSchedule := false }
    else w
  ((w.tell Bus.controller .exit).2).waitExit

/-- The tasks run until none can. -/
def settle (w : Crawler) : Crawler := machine.settle w

/-- Some milliseconds pass. -/
def advance (w : Crawler) (delay : Nat) : Crawler := machine.advance delay w

end Crawler

end ChainIndex
