import ChainIndex.Run.Download
import ChainIndex.Settings

/-!
# Command lines

A command line is a row of words and switches.  The words name a command, one word for
some and two for others.  A switch is a long name behind two dashes, or one letter
behind one dash, and an operand may stand behind it or, after a sign of equality,
in the same argument.

`globals` may stand before or between the words and behind them; where one stands at
several levels, the innermost counts.  All other switches belong to a command and
stand behind its last word.  No switch stands twice at one level.  A variable
of the environment stands in for a global switch that is not given.

`Invocation.ofArguments` reads a command line from left to right.  What it does not know it
refuses, and a request for help or for the version ends the reading at once.
-/

namespace ChainIndex.Cli

/-! ## Switches -/

/-- What stands behind a switch. -/
inductive Operand where
  /-- Nothing. -/
  | flag
  /-- Any text. -/
  | text
  /-- A text that is not empty. -/
  | path
  /-- A natural number below a bound. -/
  | natural (bound : Nat)
deriving DecidableEq, Repr

/-- A natural number below a bound.  A plus sign may stand in front. -/
def naturalBelow? (bound : Nat) (text : String) : Option Nat :=
  let digits := match text.toList with
    | '+' :: rest => rest
    | cs => cs
  if digits.isEmpty || !digits.all Char.isDigit then none
  else (String.ofList digits).toNat?.filter (· < bound)

/-- A text can be an operand. -/
def Operand.accepts (o : Operand) (text : String) : Bool :=
  match o with
  | .flag => false
  | .text => true
  | .path => !text.isEmpty
  | .natural bound => (naturalBelow? bound text).isSome

/-- A switch. -/
structure Switch where
  /-- Its long name. -/
  name : String
  /-- What stands behind it. -/
  operand : Operand
  /-- Its letter. -/
  letter : Option Char := none
  /-- The variable that stands in for it. -/
  fallback : Option String := none
deriving DecidableEq, Repr

/-- The switches that may stand anywhere. -/
def globals : List Switch := [
  ⟨"config", .path, some 'c', some "CHAINCRAWL_CONFIG"⟩,
  ⟨"rpc-url", .text, none, some "CHAINCRAWL_RPC_URL"⟩,
  ⟨"database-url", .text, none, some "CHAINCRAWL_DATABASE_URL"⟩,
  ⟨"log-level", .text, none, some "CHAINCRAWL_LOG_LEVEL"⟩,
  ⟨"json-logs", .flag, none, none⟩]

/-- The switch of a number of a block or of a count of blocks. -/
def blockSwitch (name : String) : Switch := ⟨name, .natural UInt64.size, none, none⟩

/-- The switches of a range. -/
def rangeSwitches : List Switch := [blockSwitch "from", blockSwitch "to", blockSwitch "batch"]

/-- The switch of a directory for files. -/
def rootSwitch : Switch := ⟨"root", .path, none, none⟩

/-- The commands, each with the switches that are its own. -/
def commands : List (List String × List Switch) := [
  (["index"], rangeSwitches ++ [⟨"worker", .natural UInt16.size, none, none⟩, ⟨"force", .flag, none, none⟩]),
  (["serve"], []),
  (["download", "blocks"], rangeSwitches ++ [rootSwitch]),
  (["download", "traces"], rangeSwitches ++ [rootSwitch, ⟨"use-checkpoint", .flag, none, none⟩]),
  (["database", "migrate"], []),
  (["benchmark", "blocks"], rangeSwitches),
  (["benchmark", "traces"], rangeSwitches),
  (["info"], [])]

/-- Words that name a command, or the first of them. -/
def leadsOn (words : List String) : Bool := commands.any fun c => words.isPrefixOf c.1

/-- The switches that may stand behind some words. -/
def switchesBehind (words : List String) : List Switch :=
  globals ++ ((commands.find? fun c => c.1 = words).map (·.2)).getD []

/-! ## Reading -/

/-- A switch that was given. -/
structure Given where
  /-- The count of words before it. -/
  level : Nat
  /-- Its long name. -/
  name : String
  /-- Its operand, empty for a flag. -/
  operand : String
deriving DecidableEq, Repr

/-- What was read of a command line. -/
structure Reading where
  /-- The words so far. -/
  words : List String := []
  /-- The switches so far, the last one first. -/
  given : List Given := []
deriving DecidableEq, Repr

/-- Why the reading of a command line ends. -/
inductive Halt where
  /-- It is none. -/
  | refused
  /-- It asks for help. -/
  | help
  /-- It asks for the version. -/
  | version
deriving DecidableEq, Repr

/-- An argument. -/
inductive Argument where
  /-- Two dashes alone. -/
  | dashes
  /-- A long name, and the text behind its sign of equality. -/
  | long (name : String) (attached : Option String)
  /-- A letter, and the text behind it. -/
  | short (letter : Char) (attached : List Char)
  /-- A word. -/
  | word (text : String)
deriving DecidableEq, Repr

/-- The form of an argument.  A dash alone is a word. -/
def Argument.ofText (text : String) : Argument :=
  match text.toList with
  | ['-', '-'] => dashes
  | '-' :: '-' :: cs =>
    let name := String.ofList (cs.takeWhile (· ≠ '='))
    match cs.dropWhile (· ≠ '=') with
    | [] => long name none
    | _ :: value => long name (some (String.ofList value))
  | '-' :: c :: cs => short c cs
  | _ => word text

namespace Reading

/-- A reading with one more switch. -/
def give (r : Reading) (s : Switch) (operand : String) : Except Halt Reading :=
  let level := r.words.length
  if r.given.any fun g => g.level = level && g.name = s.name then .error .refused
  else .ok { r with given := ⟨level, s.name, operand⟩ :: r.given }

/-- A reading with one more switch that has an operand. -/
def giveOperand (r : Reading) (s : Switch) (operand : String) : Except Halt Reading :=
  if s.operand.accepts operand then r.give s operand else .error .refused

/-- A reading with one more word. -/
def extend (r : Reading) (word : String) : Except Halt Reading :=
  if leadsOn (r.words ++ [word]) then .ok { r with words := r.words ++ [word] } else .error .refused

/-- A switch and the operand attached to it, or why there is none. -/
def switch (r : Reading) : Argument → Except Halt (Switch × Option String)
  | .long name attached =>
    if name = "help" && attached.isNone then .error .help
    else if name = "version" && attached.isNone && r.words.isEmpty then .error .version
    else
      match (switchesBehind r.words).find? fun s => s.name = name with
      | some s => .ok (s, attached)
      | none => .error .refused
  | .short letter attached =>
    if letter = 'h' then .error .help
    else if letter = 'V' && r.words.isEmpty then .error .version
    else
      match (switchesBehind r.words).find? fun s => s.letter = some letter, attached with
      | some s, [] => .ok (s, none)
      | some s, '=' :: cs => .ok (s, some (String.ofList cs))
      | some s, cs => .ok (s, some (String.ofList cs))
      | none, _ => .error .refused
  | _ => .error .refused

/-- A text can stand behind a switch as its operand. -/
def isOperand (text : String) : Bool :=
  match Argument.ofText text with
  | .word _ => true
  | _ => false

/-- The rest of a command line. -/
def go : List String → Reading → Except Halt Reading
  | [], r => .ok r
  | argument :: rest, r =>
    match Argument.ofText argument with
    | .dashes => if rest.isEmpty then .ok r else .error .refused
    | .word "help" =>
      if r.words.length < 2 && leadsOn (r.words ++ rest) && !commands.any (·.1 == r.words) then
        .error .help
      else .error .refused
    | .word text => (r.extend text).bind (go rest)
    | other =>
      match r.switch other with
      | .error halt => .error halt
      | .ok (s, some operand) => (r.giveOperand s operand).bind (go rest)
      | .ok (s, none) =>
        if s.operand = .flag then (r.give s "").bind (go rest)
        else
          match rest with
          | [] => .error .refused
          | operand :: rest =>
            if isOperand operand then (r.giveOperand s operand).bind (go rest) else .error .refused

/-- The operand of a switch that was given, at its innermost level. -/
def operand? (r : Reading) (name : String) : Option String :=
  (r.given.find? fun g => g.name = name).map (·.operand)

/-- A switch was given. -/
def has (r : Reading) (name : String) : Bool := (r.operand? name).isSome

/-- The number behind a switch. -/
def natural? (r : Reading) (name : String) : Option Nat :=
  (r.operand? name).bind (naturalBelow? UInt64.size)

/-- The number of a block, or the count of blocks, behind a switch. -/
def word? (r : Reading) (name : String) : Option UInt64 := (r.natural? name).map UInt64.ofNat

end Reading

/-! ## Requests -/

/-- The range of a download or of a benchmark. -/
structure BlockRange where
  /-- The first block. -/
  first : UInt64
  /-- The last block. -/
  last : UInt64
  /-- The most blocks of a window. -/
  batch : Option UInt64
deriving DecidableEq, Repr

/-- What a command line asks for. -/
inductive Verb where
  /-- Index blocks. -/
  | index (first last batch : Option UInt64) (workers : Option UInt16) (force : Bool)
  /-- Index again and again. -/
  | serve
  /-- Write the texts of blocks or traces to files. -/
  | download (kind : DownloadKind) (range : BlockRange) (root : Option String) (useCheckpoint : Bool)
  /-- Bring the tables of the store up to date. -/
  | migrate
  /-- Measure how fast blocks or traces are fetched. -/
  | benchmark (kind : DownloadKind) (range : BlockRange)
  /-- Show the settings and what is stored. -/
  | info
deriving DecidableEq, Repr

/-- A command line that was understood. -/
structure Invocation where
  /-- The path of the settings file. -/
  config : Option String
  /-- The settings on the command line. -/
  overrides : Overrides
  /-- What it asks for. -/
  verb : Verb
deriving DecidableEq, Repr

namespace Reading

/-- The range of a command. -/
def range? (r : Reading) : Option BlockRange := do
  return { first := ← r.word? "from", last := ← r.word? "to", batch := r.word? "batch" }

/-- What the words ask for. -/
def verb? (r : Reading) : Option Verb :=
  match r.words with
  | ["index"] =>
    some (.index (r.word? "from") (r.word? "to") (r.word? "batch")
      ((r.natural? "worker").map UInt16.ofNat) (r.has "force"))
  | ["serve"] => some .serve
  | ["download", "blocks"] => r.range?.map fun range => .download .blocks range (r.operand? "root") false
  | ["download", "traces"] =>
    r.range?.map fun range => .download .traces range (r.operand? "root") (r.has "use-checkpoint")
  | ["database", "migrate"] => some .migrate
  | ["benchmark", "blocks"] => r.range?.map (.benchmark .blocks)
  | ["benchmark", "traces"] => r.range?.map (.benchmark .traces)
  | ["info"] => some .info
  | _ => none

/-- A reading with the variables of the environment in place of global switches that are
not given. -/
def withVariables (r : Reading) (environment : List (String × String)) : Except Halt Reading :=
  globals.foldlM (fun r s =>
    match s.fallback.bind fun v => environment.lookup v with
    | none => .ok r
    | some text =>
      if !s.operand.accepts text then .error .refused
      else .ok { r with given := r.given ++ [⟨0, s.name, text⟩] }) r

end Reading

/-- What a command line and an environment ask for. -/
def Invocation.ofArguments (arguments : List String) (environment : List (String × String)) :
    Except Halt Invocation := do
  let r ← Reading.go arguments {}
  let r ← r.withVariables environment
  match r.verb? with
  | none => throw .refused
  | some verb =>
    return {
      config := r.operand? "config"
      overrides := {
        nodeUrl := r.operand? "rpc-url"
        databaseUrl := r.operand? "database-url"
        logLevel := r.operand? "log-level"
        logJson := r.has "json-logs" }
      verb := verb }

end ChainIndex.Cli
