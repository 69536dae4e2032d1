import ChainIndex.Retry

/-!
# Settings

The settings stand in eight sections.  Each section and each setting may be left
out and has a default.  `Settings.sections` lists them once, with the kind of each
setting: the readers of JSON and of YAML both work from this list.

`Settings.validate` finds the first of five faults that would keep a crawler from
working.
-/

namespace ChainIndex

/-- The settings of a crawler. -/
structure Settings where
  /-- The address of the node. -/
  nodeUrl : String := "http://127.0.0.1:8545"
  /-- The time a call may take, in milliseconds. -/
  nodeTimeout : UInt64 := 30000
  /-- The place of the store. -/
  databaseUrl : String := "sqlite:./chaincrawl.db"
  /-- The level of the log. -/
  logLevel : String := "info"
  /-- The levels of components, in the order of their names. -/
  logComponents : List (String × String) := []
  /-- The log is written as JSON. -/
  logJson : Bool := false
  /-- How calls to the node are made again. -/
  retry : RetryPolicy := {}
  /-- The workers that fetch blocks. -/
  fetcherWorkers : UInt16 := 8
  /-- The workers that trace blocks. -/
  tracerWorkers : UInt16 := 4
  /-- The workers that index. -/
  indexerWorkers : UInt16 := 1
  /-- The workers that download. -/
  downloaderWorkers : UInt16 := 1
  /-- The workers that write files. -/
  fileWorkers : UInt16 := 2
  /-- The workers that write rows. -/
  rowWorkers : UInt16 := 1
  /-- The first block to index. -/
  startBlock : UInt64 := 0
  /-- The last block to index, none to follow the head. -/
  endBlock : Option UInt64 := none
  /-- The most blocks of an index window. -/
  indexBatch : UInt64 := 100
  /-- The alignment of the ends of index windows. -/
  alignment : UInt64 := 1
  /-- How far to step back where the first block of a window changed. -/
  rewindDepth : UInt64 := 10
  /-- Resume from the stored checkpoint. -/
  useCheckpoint : Bool := true
  /-- Recover signers from seals. -/
  recoverSigners : Bool := true
  /-- Store transactions too. -/
  indexTransactions : Bool := false
  /-- The tick of the scheduler, in milliseconds. -/
  tick : UInt64 := 1000
  /-- The interval of the index job, in milliseconds. -/
  indexInterval : UInt64 := 5000
  /-- The directory above all files written. -/
  downloadRoot : String := "./data"
  /-- The most blocks of a download window. -/
  downloadBatch : UInt64 := 100
deriving DecidableEq, Repr, Inhabited

/-! ## Sections -/

/-- The kind of a setting, with the function that puts it. -/
inductive Setting where
  /-- A text. -/
  | text (put : String → Settings → Settings)
  /-- A file path. -/
  | path (put : String → Settings → Settings)
  /-- A truth value. -/
  | flag (put : Bool → Settings → Settings)
  /-- A word of 64 bits. -/
  | word64 (put : UInt64 → Settings → Settings)
  /-- A word of 64 bits or nothing. -/
  | optionalWord64 (put : Option UInt64 → Settings → Settings)
  /-- A word of 32 bits. -/
  | word32 (put : UInt32 → Settings → Settings)
  /-- A word of 16 bits. -/
  | word16 (put : UInt16 → Settings → Settings)
  /-- Texts by name. -/
  | texts (put : List (String × String) → Settings → Settings)

/-- A section of the settings. -/
structure Section where
  /-- The name of the section. -/
  name : String
  /-- The name of its record in messages. -/
  title : String
  /-- Its settings in declared order. -/
  entries : List (String × Setting)

/-- The name of the record of all sections in messages. -/
def Settings.title : String := "CrawlerConfig"

/-- All sections in declared order. -/
def Settings.sections : List Section := [
  ⟨"rpc", "RpcConfig", [
    ("url", .text fun a s => { s with nodeUrl := a }),
    ("timeout_ms", .word64 fun a s => { s with nodeTimeout := a })]⟩,
  ⟨"database", "DatabaseConfig", [
    ("url", .text fun a s => { s with databaseUrl := a })]⟩,
  ⟨"log", "LogConfig", [
    ("level", .text fun a s => { s with logLevel := a }),
    ("components", .texts fun a s => { s with logComponents := a }),
    ("json", .flag fun a s => { s with logJson := a })]⟩,
  ⟨"retry", "RetryConfig", [
    ("max_retries", .word32 fun a s => { s with retry := { s.retry with maxRetries := a } }),
    ("min_gap_ms", .word64 fun a s => { s with retry := { s.retry with minGap := a } }),
    ("max_gap_ms", .word64 fun a s => { s with retry := { s.retry with maxGap := a } })]⟩,
  ⟨"workers", "WorkerConfig", [
    ("block_fetcher", .word16 fun a s => { s with fetcherWorkers := a }),
    ("block_tracer", .word16 fun a s => { s with tracerWorkers := a }),
    ("block_indexer", .word16 fun a s => { s with indexerWorkers := a }),
    ("downloader", .word16 fun a s => { s with downloaderWorkers := a }),
    ("fs_writer", .word16 fun a s => { s with fileWorkers := a }),
    ("db_writer", .word16 fun a s => { s with rowWorkers := a })]⟩,
  ⟨"indexer", "IndexerConfig", [
    ("start_block", .word64 fun a s => { s with startBlock := a }),
    ("end_block", .optionalWord64 fun a s => { s with endBlock := a }),
    ("batch_size", .word64 fun a s => { s with indexBatch := a }),
    ("batch_alignment", .word64 fun a s => { s with alignment := a }),
    ("rewind_depth", .word64 fun a s => { s with rewindDepth := a }),
    ("use_checkpoint", .flag fun a s => { s with useCheckpoint := a }),
    ("recover_signers", .flag fun a s => { s with recoverSigners := a }),
    ("index_transactions", .flag fun a s => { s with indexTransactions := a })]⟩,
  ⟨"schedule", "ScheduleConfig", [
    ("tick_ms", .word64 fun a s => { s with tick := a }),
    ("index_interval_ms", .word64 fun a s => { s with indexInterval := a })]⟩,
  ⟨"download", "DownloadConfig", [
    ("root", .path fun a s => { s with downloadRoot := a }),
    ("batch_size", .word64 fun a s => { s with downloadBatch := a })]⟩]

/-! ## JSON -/

/-- A setting as a field of a record. -/
def Setting.slot (name : String) : Setting → Slot Settings
  | .text put => .of name .optional Source.readText put
  | .path put => .of name .optional Source.readPath put
  | .flag put => .of name .optional Source.readBool put
  | .word64 put => .of name .optional Source.readWord64 put
  | .optionalWord64 put => .of name .optional (Source.readOption Source.readWord64) put
  | .word32 put => .of name .optional Source.readWord32 put
  | .word16 put => .of name .optional Source.readWord16 put
  | .texts put => .of name .optional (Source.readMap Source.readText) put

/-- A section as a record read over settings. -/
def Section.shape (sec : Section) (base : Settings) : Shape Settings where
  title := sec.title
  blank := base
  slots := sec.entries.map fun (name, setting) => setting.slot name

/-- The record of all settings, read over others. -/
def Settings.shape (base : Settings) : Shape Settings where
  title := Settings.title
  blank := base
  slots := Settings.sections.map fun sec =>
    { name := sec.name, presence := .optional, put := fun source base => (sec.shape base).read .value source }

namespace Settings

/-- Settings with those of a JSON value put over them. -/
def update (base : Settings) (v : Json) : Except Mismatch Settings := (Settings.shape base).ofJson v

/-- Settings of a JSON value. -/
def ofJson (v : Json) : Except Mismatch Settings := ({} : Settings).update v

/-- Settings as JSON, by section. -/
def toJson (s : Settings) : Json :=
  .obj [
    ("rpc", .obj [("url", .str s.nodeUrl), ("timeout_ms", .word s.nodeTimeout)]),
    ("database", .obj [("url", .str s.databaseUrl)]),
    ("log", .obj [("level", .str s.logLevel),
      ("components", .obj (s.logComponents.map fun (name, level) => (name, .str level))),
      ("json", .bool s.logJson)]),
    ("retry", .obj [("max_retries", .nat s.retry.maxRetries.toNat),
      ("min_gap_ms", .word s.retry.minGap), ("max_gap_ms", .word s.retry.maxGap)]),
    ("workers", .obj [("block_fetcher", .nat s.fetcherWorkers.toNat),
      ("block_tracer", .nat s.tracerWorkers.toNat), ("block_indexer", .nat s.indexerWorkers.toNat),
      ("downloader", .nat s.downloaderWorkers.toNat), ("fs_writer", .nat s.fileWorkers.toNat),
      ("db_writer", .nat s.rowWorkers.toNat)]),
    ("indexer", .obj [("start_block", .word s.startBlock),
      ("end_block", Json.ofOption .word s.endBlock), ("batch_size", .word s.indexBatch),
      ("batch_alignment", .word s.alignment), ("rewind_depth", .word s.rewindDepth),
      ("use_checkpoint", .bool s.useCheckpoint), ("recover_signers", .bool s.recoverSigners),
      ("index_transactions", .bool s.indexTransactions)]),
    ("schedule", .obj [("tick_ms", .word s.tick), ("index_interval_ms", .word s.indexInterval)]),
    ("download", .obj [("root", .str s.downloadRoot), ("batch_size", .word s.downloadBatch)])]

/-! ## Checks -/

/-- A character that is a blank in any script. -/
def isSpace (c : Char) : Bool :=
  ('\t' ≤ c && c ≤ '\r') || c = ' ' || c = '\x85' || c = '\xa0' || c = '\u1680'
    || ('\u2000' ≤ c && c ≤ '\u200a') || c = '\u2028' || c = '\u2029' || c = '\u202f'
    || c = '\u205f' || c = '\u3000'

/-- A text of blanks alone. -/
def isBlankText (s : String) : Bool := s.toList.all isSpace

/-- The first fault that would keep a crawler from working. -/
def validate (s : Settings) : Except CrawlFault Unit := do
  if isBlankText s.nodeUrl then throw (.config "rpc.url must be set")
  if s.indexBatch = 0 then throw (.config "indexer.batch_size must be > 0")
  if s.downloadBatch = 0 then throw (.config "download.batch_size must be > 0")
  if s.retry.maxGap < s.retry.minGap then
    throw (.config ("retry.min_gap_ms (" ++ toString s.retry.minGap.toNat
      ++ ") is greater than retry.max_gap_ms (" ++ toString s.retry.maxGap.toNat ++ ")"))
  match s.endBlock with
  | none => return ()
  | some last =>
    if last < s.startBlock then
      throw (.config ("indexer.end_block (" ++ toString last.toNat
        ++ ") is below indexer.start_block (" ++ toString s.startBlock.toNat ++ ")"))
    else return ()

/-- What the log shows: the level, then the level of each component, its dashes
written as underscores. -/
def logDirectives (s : Settings) : String :=
  s.logLevel ++ String.join (s.logComponents.map fun (name, level) =>
    "," ++ String.ofList (name.toList.map fun c => if c = '-' then '_' else c) ++ "=" ++ level)

/-! ## Overrides -/

end Settings

/-- Settings given on the command line, which win over a file. -/
structure Overrides where
  /-- The address of the node. -/
  nodeUrl : Option String := none
  /-- The place of the store. -/
  databaseUrl : Option String := none
  /-- The level of the log. -/
  logLevel : Option String := none
  /-- The log is written as JSON. -/
  logJson : Bool := false
deriving DecidableEq, Repr, Inhabited

/-- The settings with overrides put over them. -/
def Settings.apply (s : Settings) (o : Overrides) : Settings :=
  { s with
    nodeUrl := o.nodeUrl.getD s.nodeUrl
    databaseUrl := o.databaseUrl.getD s.databaseUrl
    logLevel := o.logLevel.getD s.logLevel
    logJson := o.logJson || s.logJson }

end ChainIndex
