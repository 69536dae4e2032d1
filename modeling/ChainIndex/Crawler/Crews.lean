import ChainIndex.Crawler.Basic

/-!
# Workers at work

A worker takes an item from the queue of its pool and goes on with it turn by turn until
it is done.  `Crewed` says where the pool of a crew is and what one turn on a job is, so
that all crews share the turn of a worker.

A turn on a job ends with the job done, or with something that will bring the worker
back to it: a timer, an answer, or its own wish to go on.  Where a number gets out of range,
the job breaks off, and the worker is gone with it.
-/

namespace ChainIndex

namespace Crawler

/-! ## Pools -/

/-- What a turn of a worker on its job comes to. -/
inductive TurnEnd where
  /-- The worker comes back to the job. -/
  | later
  /-- The job is done. -/
  | done
  /-- The job breaks off, and the worker is gone. -/
  | broken
deriving DecidableEq, Repr, Inhabited

/-- A crew whose workers do jobs of some type. -/
structure Crewed (J : Type) where
  /-- The crew. -/
  crew : Crew
  /-- Its pool. -/
  pool : Crawler → Pool Task J
  /-- A crawler with another pool. -/
  withPool : Pool Task J → Crawler → Crawler
  /-- One turn of a worker on a job. -/
  perform : Nat → J → Crawler → TurnEnd × Crawler

namespace Crewed

variable {J : Type} (c : Crewed J)

/-- The pool changes. -/
def onPool (f : Pool Task J → Pool Task J) (w : Crawler) : Crawler := c.withPool (f (c.pool w)) w

/-- The idle worker whose turn it is can run, where there is an item for it. -/
def wakeIdle (w : Crawler) : Crawler :=
  if (c.pool w).queue.isEmpty then w
  else w.wakeAll ((c.pool w).idle.head?.toList.map (.worker c.crew))

/-- A caller puts items in, or waits. -/
def send (caller : Task) (items : List (PoolItem J)) (w : Crawler) : Crawler :=
  let (done, pool) := (c.pool w).send caller items
  c.wakeIdle ((c.withPool pool w).wakeAll (done.filter (· ≠ caller)))

/-- A scale call of the dispatcher. -/
def setWorkers (count : UInt16) (w : Crawler) : Crawler :=
  let (spawned, exits, pool) := (c.pool w).setWorkers count
  let w := (c.withPool pool w).wakeAll (spawned.map (.worker c.crew))
  c.send .dispatcher (List.replicate exits .exit) w

/-- A shutdown call of the dispatcher. -/
def shutdown (w : Crawler) : Crawler :=
  let (exits, pool) := (c.pool w).shutdown
  c.send .dispatcher (List.replicate exits .exit) (c.withPool pool w)

/-- A worker goes on with its job. -/
def goOn (worker : Nat) (job : J) (w : Crawler) : Crawler :=
  match c.perform worker job w with
  | (.later, w) => w
  | (.done, w) => (c.onPool (·.finish worker) w).wakeFirst (.worker c.crew worker)
  | (.broken, w) => c.onPool (·.lose worker) w

/-- A free worker takes an item if it is its turn. -/
def takeItem (worker : Nat) (w : Crawler) : Crawler :=
  match (c.pool w).pick? worker with
  | none => w
  | some (item, done, pool) =>
    let w := c.wakeIdle ((c.withPool pool w).wakeAll done)
    match item with
    | .job _ => w.wakeFirst (.worker c.crew worker)
    | .exit => w

/-- One turn of a worker. -/
def turn (worker : Nat) (w : Crawler) : Crawler :=
  match (c.pool w).jobOf? worker with
  | some job => c.goOn worker job w
  | none => c.takeItem worker (c.onPool (·.start worker) w)

end Crewed

/-! ## Fetching -/

/-- A slot of a fan-out is done; its drainer can run if it was the last one. -/
def wakeDrainer {ι α : Type} (crew : Crew) (f : Fanout Task ι α Nat) (handle : SlotHandle)
    (w : Crawler) : Crawler :=
  if f.queue.itemsLeft handle.key = 0 then
    w.wakeAll ((f.drainerOf? handle).toList.map (.drainer crew))
  else w

/-- The block with a number from the node, checked. -/
def fetchBlock (number : UInt64) (s : Script) : Except NodeFault (Block × String) × Script :=
  let (answer, s) := s.block number
  (answer.bind fun a => (a.1.verify number).map fun _ => a, s)

/-- The result of fetching a block. -/
def blockResultOf (number : UInt64) (answer : Except NodeFault (Block × String) × UInt32) : BlockResult :=
  match answer with
  | (.ok (block, raw), retries) => ⟨number, some block, some raw, none, retries⟩
  | (.error fault, retries) => ⟨number, none, none, some fault, retries⟩

/-- The result of fetching the head. -/
def headResultOf (answer : Except NodeFault UInt64 × UInt32) : HeadResult :=
  match answer.1 with
  | .ok number => ⟨some number, none⟩
  | .error fault => ⟨none, some fault⟩

/-- A turn of a fetcher on a job. -/
def performFetch (worker : Nat) (job : FanJob FetchAsk Nat) (w : Crawler) : TurnEnd × Crawler :=
  let task := Task.worker .fetcher worker
  match job with
  | .single (.block number) returns =>
    match w.callNode task (fetchBlock number) with
    | (none, w) => (.later, w)
    | (some answer, w) => (.done, w.respond returns (.replied (.block (blockResultOf number answer))))
  | .single .head returns =>
    match w.callNode task Script.headNumber with
    | (none, w) => (.later, w)
    | (some answer, w) => (.done, w.respond returns (.replied (.head (headResultOf answer))))
  | .slot handle index number =>
    match w.callNode task (fetchBlock number) with
    | (none, w) => (.later, w)
    | (some answer, w) =>
      let fetcher := w.fetcher.fill handle index (blockResultOf number answer)
      (.done, wakeDrainer .fetcher fetcher handle { w with fetcher := fetcher })

/-- The crew that fetches blocks. -/
def fetchCrew : Crewed (FanJob FetchAsk Nat) where
  crew := .fetcher
  pool w := w.fetcher.pool
  withPool pool w := { w with fetcher := { w.fetcher with pool := pool } }
  perform := performFetch

/-! ## Tracing -/

/-- The result of tracing a block. -/
def traceResultOf (number : UInt64) (answer : Except NodeFault (List Json × String) × UInt32) :
    TraceResult :=
  match answer with
  | (.ok (traces, raw), retries) => ⟨number, some traces, some raw, none, retries⟩
  | (.error fault, retries) => ⟨number, none, none, some fault, retries⟩

/-- The result of tracing a transaction. -/
def transactionResultOf (hash : String) (answer : Except NodeFault Json × UInt32) :
    TransactionTraceResult :=
  match answer.1 with
  | .ok trace => ⟨hash, some trace, none⟩
  | .error fault => ⟨hash, none, some fault⟩

/-- A turn of a tracer on a job. -/
def performTrace (worker : Nat) (job : FanJob TraceAsk Nat) (w : Crawler) : TurnEnd × Crawler :=
  let task := Task.worker .tracer worker
  match job with
  | .single (.block number) returns =>
    match w.callNode task (·.traces number) with
    | (none, w) => (.later, w)
    | (some answer, w) => (.done, w.respond returns (.replied (.trace (traceResultOf number answer))))
  | .single (.transaction hash) returns =>
    match w.callNode task (·.transactionTrace hash) with
    | (none, w) => (.later, w)
    | (some answer, w) =>
      (.done, w.respond returns (.replied (.transactionTrace (transactionResultOf hash answer))))
  | .slot handle index number =>
    match w.callNode task (·.traces number) with
    | (none, w) => (.later, w)
    | (some answer, w) =>
      let tracer := w.tracer.fill handle index (traceResultOf number answer)
      (.done, wakeDrainer .tracer tracer handle { w with tracer := tracer })

/-- The crew that traces. -/
def traceCrew : Crewed (FanJob TraceAsk Nat) where
  crew := .tracer
  pool w := w.tracer.pool
  withPool pool w := { w with tracer := { w.tracer with pool := pool } }
  perform := performTrace

/-! ## Writing -/

/-- A turn of a writer of files, which does the whole job. -/
def performFiles (job : FileErrand) (w : Crawler) : TurnEnd × Crawler :=
  let (written, files) := w.files.writeAll job.root job.directory job.items
  (.done, { w with files := files }.respond job.returns (.replied (.written written)))

/-- The crew that writes files. -/
def fileCrew : Crewed FileErrand where
  crew := .fileWriter
  pool w := w.fileWriter
  withPool pool w := { w with fileWriter := pool }
  perform _ := performFiles

/-- What is classified. -/
def classifyOptions (w : Crawler) : ClassifyOptions :=
  ⟨w.settings.recoverSigners, w.settings.indexTransactions⟩

/-- A turn of a writer of rows, which does the whole job or breaks it off. -/
def performRows (job : RowErrand) (w : Crawler) : TurnEnd × Crawler :=
  let (result, w) := w.onStore (Batch.writeBlocks w.classifyOptions job.blocks).run
  match result with
  | .ok report => (.done, w.respond job.returns (.replied (.persisted report)))
  | .error (.fault fault) => (.done, w.respond job.returns (.replied (.failed fault.message)))
  | .error .overflow => (.broken, w.respond job.returns .dropped)

/-- The crew that writes rows. -/
def rowCrew : Crewed RowErrand where
  crew := .rowWriter
  pool w := w.rowWriter
  withPool pool w := { w with rowWriter := pool }
  perform _ := performRows

/-! ## Downloading -/

/-- The texts in the slots of an array of blocks. -/
def blockTexts (slots : List (Option BlockResult)) : List (Option String) :=
  slots.map fun slot => slot.bind fun r => if r.fault.isNone then r.raw else none

/-- The texts in the slots of an array of traces. -/
def traceTexts (slots : List (Option TraceResult)) : List (Option String) :=
  slots.map fun slot => slot.bind fun r => if r.fault.isNone then r.raw else none

/-- Take an array of blocks out of the cache. -/
def takeBlocks (w : Crawler) (handle : SlotHandle) :
    Except SlotFault (List (Option BlockResult)) × Crawler :=
  match w.fetcher.cache.takeArray handle with
  | .ok (slots, cache) => (.ok slots, { w with fetcher := { w.fetcher with cache := cache } })
  | .error fault => (.error fault, w)

/-- Take an array of traces out of the cache. -/
def takeTraces (w : Crawler) (handle : SlotHandle) :
    Except SlotFault (List (Option TraceResult)) × Crawler :=
  match w.tracer.cache.takeArray handle with
  | .ok (slots, cache) => (.ok slots, { w with tracer := { w.tracer with cache := cache } })
  | .error fault => (.error fault, w)

/-- The handle in a reply that should bring one. -/
def handleOf (reply : Except BusFault Reply) (command : String) : Except CrawlFault SlotHandle :=
  (reply.bind fun r => r.slotHandle command).mapError CrawlFault.ofBus

/-- The texts of a window from the reply that brings them. -/
def windowTexts (kind : DownloadKind) (command : String) (reply : Except BusFault Reply) (w : Crawler) :
    Except CrawlFault (List (Option String)) × Crawler :=
  match handleOf reply command with
  | .error fault => (.error fault, w)
  | .ok handle =>
    match kind with
    | .blocks =>
      let (slots, w) := w.takeBlocks handle
      ((slots.map blockTexts).mapError CrawlFault.ofSlot, w)
    | .traces =>
      let (slots, w) := w.takeTraces handle
      ((slots.map traceTexts).mapError CrawlFault.ofSlot, w)

/-- The crew that fetches what is downloaded. -/
def crewOf : DownloadKind → Crew
  | .blocks => .fetcher
  | .traces => .tracer

/-- What a download run does next: it asks a service something, or it is over.  Then it has a reply,
unless it broke off. -/
def downloadMove (run : Nat) : DownloadPhase → (String × Command) ⊕ Option Reply
  | .askWindow r last => .inl ((crewOf r.kind).serviceName, r.kind.fetchCommand run r.next last)
  | .askWritten r _ window =>
    .inl (Crew.fileWriter.serviceName, r.kind.writeCommand r.order.root window.items)
  | .ended result => .inr (some (DownloadPhase.reply result))
  | .broken => .inr none

/-- A download run with the reply to its question. -/
def downloadTold (phase : DownloadPhase) (command : String) (reply : Except BusFault Reply) (w : Crawler) :
    DownloadPhase × Crawler :=
  match phase with
  | .askWindow run _ =>
    let (texts, w) := windowTexts run.kind command reply w
    (phase.onTexts texts, w)
  | .askWritten .. =>
    w.onStore (phase.onWritten ((reply.bind fun r => r.filesWritten command).mapError CrawlFault.ofBus))
  | .ended _ | .broken => (phase, w)

/-- A turn of a downloader: it starts its run, asks for what the run needs, or goes on with
the answer. -/
def performDownload (worker : Nat) (job : DownloadErrand) (w : Crawler) : TurnEnd × Crawler :=
  let task := Task.worker .downloader worker
  let keep := fun (w : Crawler) (p : DownloadProgress) =>
    { w with downloads := (worker, p) :: w.downloads.filter fun d => d.1 ≠ worker }
  match w.downloads.find? fun d => d.1 = worker with
  | none =>
    let (phase, w) := w.onStore (DownloadPhase.start job.kind job.order)
    let w := keep w ⟨phase, w.downloadRuns, none⟩
    (.later, { w with downloadRuns := w.downloadRuns + 1 }.wakeFirst task)
  | some (_, p) =>
    match downloadMove p.run p.phase, p.waiting with
    | .inl (service, command), none =>
      let (ticket, w) := w.askFor task service command
      (.later, keep w { p with waiting := some ticket })
    | .inl (service, command), some ticket =>
      match w.outcome? ticket with
      | none => (.later, w)
      | some outcome =>
        let (phase, w) := downloadTold p.phase command.name
          (replyOf service command.name outcome) (w.forget ticket)
        (.later, (keep w ⟨phase, p.run, none⟩).wakeFirst task)
    | .inr reply, _ =>
      let w := { w with downloads := w.downloads.filter fun d => d.1 ≠ worker }
      match reply with
      | some reply => (.done, w.respond job.returns (.replied reply))
      | none => (.broken, w.respond job.returns .dropped)

/-- The crew that downloads. -/
def downloadCrew : Crewed DownloadErrand where
  crew := .downloader
  pool w := w.downloader
  withPool pool w := { w with downloader := pool }
  perform := performDownload

end Crawler

end ChainIndex
