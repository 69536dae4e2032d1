import ChainIndex.Settings
import ChainIndex.Yaml.Reader

/-!
# Settings files

A settings file is a YAML mapping of sections, each a mapping of settings.  A blank
file has the defaults, and so has a section with nothing behind its key.  Unknown
keys are skipped, and a key of a section or a setting that stands twice is a
fault.

A text setting takes any scalar as it is written.  Numbers and truth values have
to be plain.
-/

namespace ChainIndex

open Yaml (Node)

/-- A natural number of a node, where it is below a bound. -/
def Yaml.Node.naturalBelow? (n : Node) (bound : Nat) : Option Nat :=
  n.natural?.filter (· < bound)

/-- The entries of a mapping, or none of an empty scalar. -/
def Yaml.Node.entries? : Node → Option (List (Node × Node))
  | .mapping entries => some entries
  | other => if other.isEmpty then some [] else none

/-- Texts by name; of a repeated name the last text stays. -/
def Yaml.Node.texts? (n : Node) : Option (List (String × String)) := do
  let entries ← n.entries?
  let pairs ← entries.mapM fun (key, value) => do
    let name ← key.text?
    let text ← value.text?
    return (name, text)
  return Json.sortMembers pairs

/-- The settings with one of them taken from a node. -/
def Setting.ofNode? (setting : Setting) (n : Node) (s : Settings) : Option Settings :=
  match setting with
  | .text put => n.text?.map (put · s)
  | .path put => n.text?.map (put · s)
  | .flag put => n.flag?.map (put · s)
  | .word64 put => (n.naturalBelow? UInt64.size).map fun a => put (UInt64.ofNat a) s
  | .optionalWord64 put =>
    if n.isNull then some (put none s)
    else (n.naturalBelow? UInt64.size).map fun a => put (some (UInt64.ofNat a)) s
  | .word32 put => (n.naturalBelow? UInt32.size).map fun a => put (UInt32.ofNat a) s
  | .word16 put => (n.naturalBelow? UInt16.size).map fun a => put (UInt16.ofNat a) s
  | .texts put => n.texts?.map (put · s)

/-- Known entries put over settings in their order; a known key stands once. -/
def readEntries {α : Type} (known : List (String × α)) (put : α → Node → Settings → Option Settings) :
    List (Node × Node) → (seen : List String) → Settings → Option Settings
  | [], _, s => some s
  | (key, value) :: rest, seen, s =>
    match key.text? with
    | none => none
    | some name =>
      match known.find? fun k => k.1 == name with
      | none => readEntries known put rest seen s
      | some (_, a) =>
        if seen.contains name then none
        else
          match put a value s with
          | none => none
          | some s => readEntries known put rest (name :: seen) s

/-- The settings with a section taken from a node. -/
def Section.ofNode? (sec : Section) (n : Node) (s : Settings) : Option Settings := do
  let entries ← n.entries?
  readEntries sec.entries (fun setting value s => setting.ofNode? value s) entries [] s

/-- The settings of a document. -/
def Settings.ofNode? (n : Node) : Option Settings := do
  let entries ← n.entries?
  readEntries (Settings.sections.map fun sec => (sec.name, sec)) (fun sec value s => sec.ofNode? value s)
    entries [] {}

/-- The settings of the text of a file. -/
def Settings.ofText? (text : String) : Option Settings :=
  if Settings.isBlankText text then some {} else (Node.ofText? text).bind Settings.ofNode?

/-- Why settings could not be loaded. -/
inductive SettingsFault where
  /-- The file could not be read. -/
  | unreadable
  /-- The text is no settings file. -/
  | malformed
  /-- The settings would keep a crawler from working. -/
  | invalid (fault : CrawlFault)
deriving Repr

/-- Settings of the text of a file, or the defaults where no file is named, with
overrides put over them. -/
def Settings.load (file : Option (Option String)) (overrides : Overrides) :
    Except SettingsFault Settings := do
  let base ← match file with
    | none => pure {}
    | some none => throw .unreadable
    | some (some text) =>
      match Settings.ofText? text with
      | some s => pure s
      | none => throw .malformed
  let s := base.apply overrides
  match s.validate with
  | .ok () => return s
  | .error fault => throw (.invalid fault)

end ChainIndex
