/-!
# Paths

A path is a row of steps between slashes.  `Path.normal` leaves out empty steps and
single dots, and a double dot takes the step before it back.  Two texts with one normal
form name one file, and `.` is the normal form of the place where a program
works.
-/

namespace ChainIndex.Path

/-- A path that starts at the root. -/
def isAbsolute (path : String) : Bool := path.startsWith "/"

/-- One more step behind the steps so far, which stand last first.  Above the root there
is nothing. -/
def push (absolute : Bool) (taken : List String) (step : String) : List String :=
  if step = "" || step = "." then taken
  else if step = ".." then
    match taken with
    | [] => if absolute then [] else [".."]
    | ".." :: rest => ".." :: ".." :: rest
    | _ :: rest => rest
  else step :: taken

/-- The steps of a path, last first. -/
def stepsBack (path : String) : List String :=
  (path.splitOn "/").foldl (push (isAbsolute path)) []

/-- The path with some steps, which stand last first. -/
def ofStepsBack (absolute : Bool) (back : List String) : String :=
  let text := "/".intercalate back.reverse
  if absolute then "/" ++ text else if text.isEmpty then "." else text

/-- The normal form of a path. -/
def normal (path : String) : String := ofStepsBack (isAbsolute path) (stepsBack path)

/-- The directories above a path, the nearest first. -/
def parents (path : String) : List String :=
  let back := stepsBack path
  (List.range back.length).map fun n => ofStepsBack (isAbsolute path) (back.drop (n + 1))

/-- The directory of a path. -/
def parent (path : String) : String := ofStepsBack (isAbsolute path) ((stepsBack path).drop 1)

/-- A path that stays below the place where a program works. -/
def isBelow (path : String) : Bool := !isAbsolute path && (stepsBack path).getLast? != some ".."

end ChainIndex.Path
