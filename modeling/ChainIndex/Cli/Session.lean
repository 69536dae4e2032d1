import ChainIndex.Cli.Arguments
import ChainIndex.Crawler.Client
import ChainIndex.Node.Address
import ChainIndex.Settings.File
import ChainIndex.Workplace

/-!
# Running a command

`Invocation.run` does what a command line asks for in a workplace.  It ends with an
`Ending`: an exit code, what is printed, and what is printed as an error.

First the settings are loaded and the overrides put over them.  A command that needs a
crawler opens the store, starts the crawler, gives its order, and stops the crawler
whatever came of it.  A range whose first block is above its last is refused: by
a download before the crawler starts, by a benchmark after.

A node is reached through `NodeAt`, a function from addresses to nodes.
-/

namespace ChainIndex.Cli

/-! ## Endings -/

/-- How a command ends. -/
structure Ending where
  /-- The exit code, zero for success. -/
  code : Nat := 0
  /-- What is printed. -/
  output : String := ""
  /-- What is printed as an error. -/
  errors : String := ""
deriving DecidableEq, Repr, Inhabited

/-- The text of some lines. -/
def lines (texts : List String) : String := String.join (texts.map (· ++ "\n"))

/-- A success that prints some lines. -/
def Ending.success (texts : List String) : Ending := { output := lines texts }

/-- The commands and their switches, as help. -/
def usage : List String :=
  let shown (s : Switch) : String :=
    " [--" ++ s.name ++ (if s.operand = .flag then "]" else " " ++ s.name.toUpper ++ "]")
  "Usage: chaincrawl [GLOBALS] COMMAND" ::
  commands.map (fun c => "  " ++ " ".intercalate c.1 ++ String.join (c.2.map shown)) ++
  ["Globals:" ++ String.join (globals.map shown)]

/-- The ending of a command line that is refused. -/
def Ending.refusal : Ending := { code := 2, errors := lines usage }

/-- What went wrong, and why if more is known.  A cause is set in, all its lines. -/
def Ending.failure (what : String) (cause : Option String := none) : Ending :=
  let why := match cause with
    | none => []
    | some text => ["", "Caused by:", "    " ++ "\n    ".intercalate (text.splitOn "\n")]
  { code := 1, errors := lines (("Error: " ++ what) :: why) }

/-- The ending where a number got out of range.  Nothing is said by the command itself any more. -/
def Ending.abort (what : String) : Ending := { code := 101, errors := lines [what] }

/-- A command at work in a workplace. -/
abbrev Session := ExceptT Ending (StateM Workplace)

/-- The nodes that can be called, by address. -/
abbrev NodeAt := String → Script

/-- The version of the program. -/
def version : String := "0.2.0"

/-! ## Settings and stores -/

/-- The ending where settings could not be loaded from a file. -/
def settingsFailure (path : String) : SettingsFault → Ending
  | .unreadable =>
    .failure ("read config file '" ++ path ++ "'") (some "No such file or directory (os error 2)")
  | .malformed => .failure ("parse config file '" ++ path ++ "'") (some "not a settings file")
  | .invalid fault => .failure "invalid configuration" (some fault.message)

/-- The settings of a command. -/
def settingsOf (i : Invocation) : Session Settings := do
  let file := i.config.map (← get).files.read?
  match Settings.load file i.overrides with
  | .ok settings => return settings
  | .error fault => throw (settingsFailure (i.config.getD "") fault)

/-- Open the store at an address. -/
def openStore (url : String) : Session (Except CrawlFault OpenStore) := do
  let place ← get
  match place.openStore url with
  | .ok opened =>
    set (place.keep opened)
    return .ok opened
  | .error fault => return .error fault

/-- Open the store at an address, or end the command. -/
def requireStore (url : String) : Session OpenStore := do
  match ← openStore url with
  | .ok opened => return opened
  | .error fault => throw (.failure ("open database '" ++ url ++ "'") (some fault.message))

/-! ## Crawlers -/

/-- Start a crawler, use it, and stop it.  What it stored and wrote stays. -/
def withCrawler {α : Type} (nodes : NodeAt) (s : Settings) (use : Crawler → α × Crawler) : Session α := do
  let opened ← requireStore s.databaseUrl
  let (result, w) := use (Crawler.start s (nodes s.nodeUrl) opened.store (← get).files)
  let (_, w) := w.shutdown
  modify fun place => { place with files := w.files }.keep { opened with store := w.store }
  return result

/-- The wording where a crawler that was waited for does not answer. -/
def silence : String := "the crawler does not answer"

/-- The result of an order, or the end of the command. -/
def require {α ε : Type} (what : String) (message : ε → String) (result : Option (Except ε α)) : Session α :=
  match result with
  | some (.ok a) => return a
  | some (.error fault) => throw (.failure what (some (message fault)))
  | none => throw (.failure what (some silence))

/-- The ending where a range is upside down. -/
def checkRange (range : BlockRange) : Session Unit := do
  if range.last < range.first then
    throw (.failure ("--from (" ++ toString range.first.toNat ++ ") is above --to (" ++
      toString range.last.toNat ++ ")"))

/-! ## Commands -/

/-- What is printed after an index run. -/
def indexLines (r : BatchReport) : List String := [
  "✓ Indexed " ++ toString r.windows ++ " window(s), next block " ++ toString r.nextBlock.toNat,
  "  Blocks:       " ++ toString r.newBlocks ++ " new, " ++ toString r.changedBlocks ++ " changed",
  "  Transactions: " ++ toString r.newTransactions ++ " new, " ++ toString r.changedTransactions ++
    " changed",
  "  Issues:       " ++ toString r.issues ++ " (" ++ toString r.reorgs ++ " reorgs)"] ++
  if r.failedBlocks = 0 then []
  else ["  Failed:       " ++ toString r.failedBlocks ++ " block(s), checkpoint held"]

/-- What is printed after a download. -/
def downloadLines (root : String) (r : DownloadReport) : List String :=
  ("✓ Wrote " ++ toString r.written ++ " file(s) under " ++ root) ::
  if r.failed = 0 then []
  else ["  Skipped " ++ toString r.failed ++ " item(s) that could not be fetched"]

/-- The title of what a benchmark fetches. -/
def benchmarkTitle : DownloadKind → String
  | .blocks => "Blocks"
  | .traces => "Traces"

/-- What is printed after a benchmark. -/
def benchmarkLines (kind : DownloadKind) (range : BlockRange) (batch : UInt64) (t : Tally) : List String := [
  "Benchmark: " ++ benchmarkTitle kind ++ " " ++ toString range.first.toNat ++ "..=" ++
    toString range.last.toNat ++ " (batch " ++ toString batch.toNat ++ ")",
  "  Items:      " ++ toString t.total ++ " (" ++ toString t.ok ++ " ok, " ++ toString t.failed ++ " failed)",
  "  Retries:    " ++ toString t.retries]

/-- The settings and where they point. -/
def settingsLines (s : Settings) : List String := [
  "ChainCrawl v" ++ version,
  "",
  "RPC:       " ++ s.nodeUrl,
  "Database:  " ++ s.databaseUrl,
  "Dump root: " ++ s.downloadRoot,
  "Workers:   fetcher=" ++ toString s.fetcherWorkers.toNat ++ " tracer=" ++ toString s.tracerWorkers.toNat ++
    " indexer=" ++ toString s.indexerWorkers.toNat ++ " downloader=" ++ toString s.downloaderWorkers.toNat ++
    " fs_writer=" ++ toString s.fileWorkers.toNat ++ " db_writer=" ++ toString s.rowWorkers.toNat]

/-- A checkpoint, or a dash where there is none. -/
def checkpointText (checkpoint : Option UInt64) : String :=
  match checkpoint with
  | some number => toString number.toNat
  | none => "-"

/-- What a store holds. -/
def storeLines : Action Store (List String) := do
  let index ← Backend.getCheckpoint .index
  let trace ← Backend.getCheckpoint .trace
  let issues ← Backend.issues (σ := Store)
  return [
    "Index checkpoint: " ++ checkpointText index,
    "Trace checkpoint: " ++ checkpointText trace,
    "Issues recorded:  " ++ toString issues.length]

/-- Index blocks. -/
def index (nodes : NodeAt) (s : Settings) (o : IndexOrder) : Session (List String) := do
  let report ← require "index failed" CrawlFault.message (← withCrawler nodes s (·.index o))
  return indexLines report

/-- Index again and again until the node was asked for its head so many times, or until
the bus exits by itself. -/
def serve (nodes : NodeAt) (s : Settings) (heads : Option Nat) : Session (List String) := do
  let interrupted (w : Crawler) : Bool := (heads.map fun n => decide (n ≤ w.node.headCalls)).getD false
  let exited ← withCrawler nodes s fun w =>
    let (_, w) := w.startSchedule
    let (w, _) := Crawler.machine.await (fun w => w.bus.exited || interrupted w) w
    (w.bus.exited && !interrupted w, w)
  if exited then
    throw (.failure "the service bus exited (storage failure?); see the log for the cause")
  return []

/-- Write the texts of blocks or traces to files. -/
def download (nodes : NodeAt) (s : Settings) (kind : DownloadKind) (range : BlockRange)
    (root : String) (useCheckpoint : Bool) : Session (List String) := do
  checkRange range
  let o : DownloadOrder := ⟨range.first, range.last, range.batch.getD s.downloadBatch, root, useCheckpoint⟩
  let report ← require "download failed" CrawlFault.message (← withCrawler nodes s (·.download kind o))
  return downloadLines root report

/-- Measure how blocks or traces are fetched. -/
def benchmark (nodes : NodeAt) (s : Settings) (kind : DownloadKind) (range : BlockRange) :
    Session (List String) := do
  let batch := Window.effectiveSize (range.batch.getD s.downloadBatch)
  let result ← withCrawler nodes s fun w =>
    if range.last < range.first then (none, w)
    else w.benchmark ⟨kind, range.last, batch, range.first, {}⟩
  checkRange range
  match result with
  | some (.ok tally) => return benchmarkLines kind range batch tally
  | some (.error .overflow) => throw (.abort BenchmarkFault.overflow.message)
  | some (.error fault) => throw (.failure fault.message)
  | none => throw (.failure silence)

/-- Show the settings and what is stored. -/
def info (s : Settings) : Session (List String) := do
  let stored := match ← openStore s.databaseUrl with
    | .error fault => ["Storage:   unavailable (" ++ fault.message ++ ")"]
    | .ok opened =>
      match (storeLines.on opened.store).1 with
      | .ok texts => texts
      | .error fault => ["Storage:   unavailable (" ++ fault.message ++ ")"]
  return settingsLines s ++ stored

/-- What is printed after a command with some settings. -/
def perform (nodes : NodeAt) (heads : Option Nat) (s : Settings) : Verb → Session (List String)
  | .index first last batch workers force =>
    index nodes { s with fetcherWorkers := workers.getD s.fetcherWorkers } {
      first := first.getD s.startBlock
      last := last.or s.endBlock
      batchSize := batch.getD s.indexBatch
      useCheckpoint := s.useCheckpoint && !force }
  | .serve => serve nodes s heads
  | .download kind range root useCheckpoint =>
    download nodes s kind range (root.getD s.downloadRoot) useCheckpoint
  | .migrate => do
    let _ ← requireStore s.databaseUrl
    return ["✓ Schema is up to date (" ++ s.databaseUrl ++ ")"]
  | .benchmark kind range => benchmark nodes s kind range
  | .info => info s

/-- Run a command in a workplace.  Serving ends once the node was asked for its head so
many times. -/
def Invocation.run (i : Invocation) (nodes : NodeAt) (heads : Option Nat) (place : Workplace) :
    Ending × Workplace :=
  let session : Session (List String) := do perform nodes heads (← settingsOf i) i.verb
  match session.run place with
  | (.ok texts, place) => (.success texts, place)
  | (.error ending, place) => (ending, place)

/-- Run a command line in a workplace. -/
def run (arguments : List String) (environment : List (String × String)) (nodes : NodeAt)
    (heads : Option Nat) (place : Workplace) : Ending × Workplace :=
  match Invocation.ofArguments arguments environment with
  | .ok i => i.run nodes heads place
  | .error .refused => (.refusal, place)
  | .error .help => (.success usage, place)
  | .error .version => (.success ["chaincrawl " ++ version], place)

end ChainIndex.Cli
