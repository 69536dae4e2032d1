import ChainIndex.Cli.Session

/-!
# The program

Reads the settings file that the command line names, runs the command line, writes the
files that came of it and prints how it ended.

The program makes no connections of its own, so every node is `Script.unreachable`, and
a database file lasts as long as the program.
-/

open ChainIndex

/-- The variables of the environment that stand in for switches. -/
def readVariables : IO (List (String × String)) := do
  let found ← (Cli.globals.filterMap (·.fallback)).mapM fun name => do
    return (← IO.getEnv name).map fun value => (name, value)
  return found.filterMap id

/-- The workplace with the settings file at a path, where it can be read. -/
def readPlace (config : Option String) : IO Workplace := do
  match config with
  | none => return {}
  | some path =>
    try return ({} : Workplace).put path (← IO.FS.readFile path)
    catch _ => return {}

/-- Write the files that a command added. -/
def writeFiles (before after : Workplace) : IO Unit := do
  for (path, text) in after.files.files do
    unless before.files.files.contains (path, text) do
      IO.FS.createDirAll (Path.parent path)
      IO.FS.writeFile path text

/-- The exit code of a command line. -/
def main (arguments : List String) : IO UInt32 := do
  let environment ← readVariables
  let config := (Cli.Invocation.ofArguments arguments environment).toOption.bind (·.config)
  let before ← readPlace config
  let (ending, after) := Cli.run arguments environment Script.unreachable none before
  writeFiles before after
  IO.print ending.output
  IO.eprint ending.errors
  return UInt32.ofNat ending.code
