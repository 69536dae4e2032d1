import ChainIndex.Files
import ChainIndex.Store.Location

/-!
# Where a crawler works

A workplace holds the files that were written and the database files.  `openStore`
opens the store at an address.  Its file has to be there unless the address asks for a
new one, and then the directory has to be there.  `keep` puts the store back, so that
the next one to open the file finds what was stored.

Stores without a file are gone when they are closed.  No database server can be
reached from a workplace.
-/

namespace ChainIndex

/-- Files and database files. -/
structure Workplace where
  /-- The files written. -/
  files : FileTree := { onDisk := true }
  /-- The database files, by the normal forms of their paths. -/
  databases : List (String × SignedStore) := []
deriving Inhabited

/-- A store that was opened, and the normal form of the path of its file. -/
structure OpenStore where
  /-- The store. -/
  store : Store
  /-- The path of its file, none where it has no file. -/
  path : Option String := none
deriving Inhabited

namespace Workplace

/-! ## Files -/

/-- A text put in the place of a file. -/
def put (w : Workplace) (path text : String) : Workplace := { w with files := w.files.put path text }

/-- The directories that are there before anything is written. -/
def firstDirectories : List String := [".", "/", "/tmp", "/var/tmp"]

/-- A directory with some normal form is there. -/
def hasDirectory (w : Workplace) (path : String) : Bool :=
  firstDirectories.contains path || w.files.hasDirectory path

/-- The paths of all files below the workplace, in order. -/
def paths (w : Workplace) : List String :=
  (((w.files.files.map (·.1)) ++ w.databases.map (·.1)).filter Path.isBelow).mergeSort fun a b => a ≤ b

/-! ## Stores -/

/-- A fault of the engine behind a database file. -/
def engineFault (code : Nat) (reason : String) : CrawlFault :=
  .storage ("error returned from database: (code: " ++ toString code ++ ") " ++ reason)

/-- The database file at a path, or a new one. -/
def openFile (w : Workplace) (path : String) (create : Bool) : Except CrawlFault OpenStore :=
  let normal := Path.normal path
  let opened (store : SignedStore) : Except CrawlFault OpenStore := .ok ⟨.signed store, some normal⟩
  match w.databases.find? fun d => d.1 = normal, w.files.read? path with
  | some (_, store), _ => opened store
  | none, some "" => opened {}
  | none, some _ => .error (engineFault 26 "file is not a database")
  | none, none =>
    if create && w.hasDirectory (Path.parent path) && !w.hasDirectory normal then opened {}
    else .error (engineFault 14 "unable to open database file")

/-- The store at an address. -/
def openStore (w : Workplace) (url : String) : Except CrawlFault OpenStore := do
  match ← Location.ofUrl url with
  | .memory => return { store := .memory {} }
  | .transient => return { store := .signed {} }
  | .file path create => w.openFile path create
  | .server _ => throw (.storage "pool timed out while waiting for an open connection")

/-- The workplace after a store was opened or written to. -/
def keep (w : Workplace) (opened : OpenStore) : Workplace :=
  match opened.path, opened.store with
  | some path, .signed store =>
    { w with databases := (path, store) :: w.databases.filter fun d => d.1 ≠ path }
  | _, _ => w

end Workplace

end ChainIndex
