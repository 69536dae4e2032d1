import ChainIndex.Files.Path
import ChainIndex.Message

/-!
# Files

Raw texts are written to one file per block, named by its number, below a root and
the directory of their kind.  An empty root writes nothing.  A file that cannot be
written is skipped, and the others are written all the same.

A path behind another one is joined by a slash, unless it starts with one: then it
stands alone.

A tree on a disk has directories.  There a path stands for its normal form, a file cannot be
written below another file, and none in the place of a directory.
-/

namespace ChainIndex

/-- The path of `name` below `root`. -/
def joinPath (root name : String) : String :=
  if name.startsWith "/" || root.isEmpty then name
  else if root.endsWith "/" then root ++ name
  else root ++ "/" ++ name

/-- The directory of the texts of blocks. -/
def blocksDirectory : String := "getBlockByNumber"

/-- The directory of the texts of traces. -/
def tracesDirectory : String := "traceBlockByNumber"

/-- Files by path, and the paths that cannot be written. -/
structure FileTree where
  /-- The texts by path, in the order of the paths. -/
  files : List (String × String) := []
  /-- The paths that cannot be written. -/
  broken : List String := []
  /-- The files are on a disk. -/
  onDisk : Bool := false
deriving Repr, Inhabited

namespace FileTree

/-- The text under which a path is kept. -/
def key (t : FileTree) (path : String) : String := if t.onDisk then Path.normal path else path

/-- A directory has files. -/
def hasDirectory (t : FileTree) (path : String) : Bool :=
  t.files.any fun f => (Path.parents f.1).contains path

/-- On a disk, a file is in the place of a directory or the other way round. -/
def isBlocked (t : FileTree) (path : String) : Bool :=
  t.onDisk && (t.hasDirectory path || t.files.any fun f => (Path.parents path).contains f.1)

/-- A text put in the place of a file. -/
def put (t : FileTree) (path text : String) : FileTree :=
  { t with files := Json.insertMember (t.key path) text t.files }

/-- The text of a file. -/
def read? (t : FileTree) (path : String) : Option String := t.files.lookup (t.key path)

/-- Write a file, over the one that stood there. -/
def write (t : FileTree) (path text : String) : Except CrawlFault FileTree :=
  if t.broken.contains path then .error (.io "read-only")
  else if t.isBlocked (t.key path) then .error (.io "Not a directory (os error 20)")
  else .ok (t.put path text)

/-- The path of the text of a block. -/
def blockPath (root directory : String) (number : UInt64) : String :=
  joinPath (joinPath root directory) (toString number.toNat ++ ".json")

/-- Write the texts of some blocks, and how many could be written. -/
def writeAll (t : FileTree) (root directory : String) (items : List (UInt64 × String)) : Nat × FileTree :=
  if root.isEmpty then (0, t)
  else
    items.foldl (fun (written, t) (number, text) =>
      match t.write (blockPath root directory number) text with
      | .ok t => (written + 1, t)
      | .error _ => (written, t))
      (0, t)

end FileTree

end ChainIndex
