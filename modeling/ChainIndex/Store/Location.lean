import ChainIndex.Store.Memory
import ChainIndex.Store.Signed
import ChainIndex.Text.Percent
import ChainIndex.Text.Quoted

/-!
# Where a store is

A `Store` is one of the two kinds.  `Location.ofUrl` reads the address of a store:
`memory:`, a database in memory, a database file, or a database server.
-/

namespace ChainIndex

/-- A store of either kind. -/
inductive Store where
  /-- A store in memory. -/
  | memory (store : MemoryStore)
  /-- A store of signed columns. -/
  | signed (store : SignedStore)
deriving Repr, Inhabited

namespace Store

/-- An action on the store inside. -/
def lift {α : Type} (onMemory : Action MemoryStore α) (onSigned : Action SignedStore α) :
    Action Store α := fun s =>
  match s with
  | .memory m =>
    let (r, m) := onMemory m
    (r, .memory m)
  | .signed m =>
    let (r, m) := onSigned m
    (r, .signed m)

end Store

instance : Backend Store where
  getBlocks numbers := Store.lift (Backend.getBlocks numbers) (Backend.getBlocks numbers)
  getBlocksByHashes hashes :=
    Store.lift (Backend.getBlocksByHashes hashes) (Backend.getBlocksByHashes hashes)
  saveBlocks new changed := Store.lift (Backend.saveBlocks new changed) (Backend.saveBlocks new changed)
  getTransactions hashes :=
    Store.lift (Backend.getTransactions hashes) (Backend.getTransactions hashes)
  saveTransactions new changed :=
    Store.lift (Backend.saveTransactions new changed) (Backend.saveTransactions new changed)
  getCheckpoint kind := Store.lift (Backend.getCheckpoint kind) (Backend.getCheckpoint kind)
  saveCheckpoint kind number :=
    Store.lift (Backend.saveCheckpoint kind number) (Backend.saveCheckpoint kind number)
  saveIssues issues := Store.lift (Backend.saveIssues issues) (Backend.saveIssues issues)
  issues := Store.lift Backend.issues Backend.issues
  counts
    | .memory m => Backend.counts m
    | .signed m => Backend.counts m

/-! ## Addresses -/

/-- What the address of a store names. -/
inductive Location where
  /-- A store in memory. -/
  | memory
  /-- A database that lives as long as it is open. -/
  | transient
  /-- A database file, and whether it is made where it is missing. -/
  | file (path : String) (create : Bool)
  /-- A database server. -/
  | server (url : String)
deriving DecidableEq, Repr

/-- How a database is opened. -/
structure OpenMode where
  /-- A missing file is made. -/
  create : Bool := false
  /-- The database is not in a file at all. -/
  inMemory : Bool := false
deriving DecidableEq, Repr

namespace OpenMode

/-- The ways to lock a file that a database knows. -/
def lockings : List String := ["unix", "unix-dotfile", "unix-excl", "unix-none"]

/-- A parameter that cannot be. -/
def refuse {α : Type} (reason : String) : Except CrawlFault α :=
  .error (.storage ("error with configuration: " ++ reason))

/-- The mode with a parameter. -/
def set (m : OpenMode) (name value : String) : Except CrawlFault OpenMode :=
  match name, value with
  | "mode", "rwc" => .ok { m with create := true }
  | "mode", "memory" => .ok { m with inMemory := true }
  | "mode", "rw" => .ok m
  | "mode", "ro" => .ok m
  | "cache", "private" => .ok m
  | "cache", "shared" => .ok m
  | "immutable", "true" => .ok m
  | "immutable", "1" => .ok m
  | "immutable", "false" => .ok m
  | "immutable", "0" => .ok m
  | "vfs", value =>
    if lockings.contains value then .ok m
    else .error (.storage ("error returned from database: (code: 1) no such vfs: " ++ value))
  | name, value =>
    if ["mode", "cache", "immutable"].contains name then
      refuse ("unknown value " ++ Text.quoted value ++ " for `" ++ name ++ "`")
    else refuse ("unknown query parameter `" ++ name ++ "` while parsing connection URL")

end OpenMode

namespace Location

/-- The text behind some first part, where it starts with that. -/
def behind? (start text : String) : Option String :=
  if text.startsWith start then some (String.ofList (text.toList.drop start.length)) else none

/-- The text behind a first part that may be repeated. -/
def behindAll (start text : String) : String :=
  (List.range text.length).foldl (fun text _ => (behind? start text).getD text) text

/-- The two parts of a text before and behind a mark, the first one all of it where there
is no mark. -/
def cut (mark text : String) : String × String :=
  match text.splitOn mark with
  | [] => (text, "")
  | first :: rest => (first, mark.intercalate rest)

/-- The text of a name or a value among the parameters.  A plus sign is a blank. -/
def parameterText (text : String) : String :=
  let text := text.map fun c => if c = '+' then ' ' else c
  (Percent.decode? text).getD text

/-- The parameters behind a question mark, as pairs. -/
def parameters (query : String) : List (String × String) :=
  ((query.splitOn "&").filter (!·.isEmpty)).map fun part =>
    let (name, value) := cut "=" part
    (parameterText name, parameterText value)

/-- How a database is opened, from the address behind its scheme.  Without a mode the
file has to be there, and without a path it is no lasting one. -/
def ofDatabase (rest : String) : Except CrawlFault Location := do
  let (path, query) := cut "?" rest
  let mode ← (parameters query).foldlM (fun m (name, value) => m.set name value) ({} : OpenMode)
  if path = ":memory:" || mode.inMemory then return .transient
  match Percent.decode? path with
  | none => OpenMode.refuse "invalid utf-8 sequence"
  | some "" => return .transient
  | some path => return .file path mode.create

/-- What an address names. -/
def ofUrl (url : String) : Except CrawlFault Location :=
  if url = "memory:" || url = "memory" then .ok .memory
  else if url.startsWith "sqlite:" then
    ofDatabase (behindAll "sqlite:" (behindAll "sqlite://" url))
  else if url.startsWith "postgres://" || url.startsWith "postgresql://" then .ok (.server url)
  else .error (.config ("unsupported database url '" ++ url ++ "'"))

end Location

end ChainIndex
