import ChainIndex.Yaml.Node

/-!
# Reading YAML text

One document: blocks laid out by indentation, flow collections in brackets, plain
and quoted scalars over one line or more, literal and folded blocks, comments,
anchors and aliases.  Tags are read and dropped.

Spaces alone indent.  A key stands on one line, so that a plain scalar over two
lines is never followed by a colon.  A block collection starts on a line of its
own, or right behind the dash of an item.

A malformed text has no node; why is not told.
-/

namespace ChainIndex.Yaml

/-- The text ahead, and how far its first character stands from the line start.
The column is exact at the start of a node; behind a scalar it is not needed. -/
structure Cursor where
  /-- The text ahead. -/
  rest : List Char
  /-- The characters before it on its line. -/
  column : Nat
  /-- The nodes that carry an anchor, newest first. -/
  anchors : List (String × Node)
deriving Inhabited

/-! ## Characters -/

/-- A space or a tab. -/
def isBlank (c : Char) : Bool := c = ' ' || c = '\t'

/-- The text starts with a blank or a line end, or is empty. -/
def atBreak : List Char → Bool
  | [] => true
  | c :: _ => isBlank c || c = '\n'

/-- The characters that structure a flow collection. -/
def isFlowMark (c : Char) : Bool := c = ',' || c = '[' || c = ']' || c = '\x7b' || c = '\x7d'

/-- The text starts with the mark of a document's start or end. -/
def atDocumentMark : List Char → Bool
  | '-' :: '-' :: '-' :: cs => atBreak cs
  | '.' :: '.' :: '.' :: cs => atBreak cs
  | _ => false

/-- A character that may stand in a text. -/
def isPrintable (c : Char) : Bool :=
  c = '\t' || c = '\n' || c = '\r' || c = '\x85' || ('\x20' ≤ c && c ≤ '\x7e')
    || ('\xa0' ≤ c && c ≠ '\ufeff' && c ≠ '\ufffe' && c ≠ '\uffff')

/-- Every line end as a line feed. -/
def unifyLineEnds : List Char → List Char
  | '\r' :: '\n' :: cs => '\n' :: unifyLineEnds cs
  | '\r' :: cs => '\n' :: unifyLineEnds cs
  | c :: cs => c :: unifyLineEnds cs
  | [] => []

/-! ## Blanks and comments -/

/-- The text behind blanks, comments and line ends, its column, and whether a line
end was passed.  Tabs are blanks where `tabs` says so, and no longer once a line
end was passed outside of brackets. -/
def skipFrom (flow : Bool) : (tabs comment crossed : Bool) → Nat → List Char →
    List Char × Nat × Bool
  | _, _, crossed, column, [] => ([], column, crossed)
  | tabs, comment, crossed, column, c :: cs =>
    if c = '\n' then skipFrom flow flow false true 0 cs
    else if comment then skipFrom flow tabs true crossed (column + 1) cs
    else if c = '#' then skipFrom flow tabs true crossed (column + 1) cs
    else if c = ' ' || (c = '\t' && tabs) then skipFrom flow tabs false crossed (column + 1) cs
    else (c :: cs, column, crossed)

/-- The cursor behind blanks, comments and line ends, and whether a line end was passed. -/
def Cursor.skip (c : Cursor) (flow tabs : Bool) : Cursor × Bool :=
  let (rest, column, crossed) := skipFrom flow tabs false false c.column c.rest
  ({ c with rest := rest, column := column }, crossed)

/-! ## Plain scalars -/

/-- The characters of a plain scalar on one line, newest first, and the text at
what ended them. -/
def plainLine (flow : Bool) : (acc : List Char) → List Char → List Char × List Char
  | acc, [] => (acc, [])
  | acc, c :: cs =>
    if c = '\n' then (acc, c :: cs)
    else if c = ':' && (atBreak cs || (flow && (cs.head?.map isFlowMark).getD false)) then (acc, c :: cs)
    else if flow && isFlowMark c then (acc, c :: cs)
    else if c = '#' && (acc.head?.map isBlank).getD false then (acc, c :: cs)
    else plainLine flow (c :: acc) cs

/-- The line ends ahead that are followed by nothing but blanks and another line
end, the text at the first line that holds more, and its column. -/
def blankLines : (count column : Nat) → List Char → Nat × Nat × List Char
  | count, column, [] => (count, column, [])
  | count, column, c :: cs =>
    if c = '\n' then blankLines (count + 1) 0 cs
    else if isBlank c then blankLines count (column + 1) cs
    else (count, column, c :: cs)

/-- What lines of a scalar are joined by: a space, or as many line ends as lines
were left blank. -/
def folded (lineEnds : Nat) : List Char :=
  if lineEnds ≤ 1 then [' '] else List.replicate (lineEnds - 1) '\n'

/-- The rest of a plain scalar behind its first line.  A line belongs to it if it
is indented deeper than `indent` and is neither a comment nor a document mark. -/
def plainRest (flow : Bool) (indent : Int) : Nat → (acc : List Char) → List Char →
    List Char × List Char
  | 0, acc, cs => (acc, cs)
  | fuel + 1, acc, cs =>
    let acc := acc.dropWhile isBlank
    match cs with
    | '\n' :: _ =>
      let (lineEnds, column, rest) := blankLines 0 0 cs
      match rest with
      | [] => (acc, cs)
      | c :: _ =>
        if c = '#' || (flow && isFlowMark c) || (c = ':' && atBreak (rest.drop 1))
            || (column = 0 && atDocumentMark rest) || (!flow && (column : Int) ≤ indent) then
          (acc, cs)
        else
          let (line, rest) := plainLine flow (folded lineEnds ++ acc) rest
          plainRest flow indent fuel line rest
    | _ => (acc, cs)

/-- A plain scalar may start here. -/
def startsPlain (flow : Bool) : List Char → Bool
  | [] => false
  | c :: cs =>
    if c = '-' || c = '?' || c = ':' then
      !atBreak cs && !(flow && (cs.head?.map isFlowMark).getD false)
    else !(isFlowMark c || "#&*!|>'\"%@\x60".toList.contains c || isBlank c || c = '\n')

/-! ## Quoted scalars -/

/-- The number of some hexadecimal digits, and the text behind them. -/
def hexDigits? : (count : Nat) → Nat → List Char → Option (Nat × List Char)
  | 0, n, cs => some (n, cs)
  | _ + 1, _, [] => none
  | count + 1, n, c :: cs =>
    match Node.digit? 16 c with
    | some d => hexDigits? count (16 * n + d) cs
    | none => none

/-- The character with a code, where there is one. -/
def scalarChar? (code : Nat) : Option Char :=
  if code.isValidChar then some (Char.ofNat code) else none

/-- The character of an escape of one letter. -/
def simpleEscape? : Char → Option Char
  | '0' => some '\x00'
  | 'a' => some '\x07'
  | 'b' => some '\x08'
  | 't' => some '\t'
  | '\t' => some '\t'
  | 'n' => some '\n'
  | 'v' => some '\x0b'
  | 'f' => some '\x0c'
  | 'r' => some '\r'
  | 'e' => some '\x1b'
  | ' ' => some ' '
  | '"' => some '"'
  | '/' => some '/'
  | '\\' => some '\\'
  | 'N' => some '\x85'
  | '_' => some '\xa0'
  | 'L' => some '\u2028'
  | 'P' => some '\u2029'
  | _ => none

/-- The character of an escape behind its backslash, and the text behind it. -/
def escape? : List Char → Option (Char × List Char)
  | 'x' :: cs => coded 2 cs
  | 'u' :: cs => coded 4 cs
  | 'U' :: cs => coded 8 cs
  | c :: cs => (simpleEscape? c).map fun e => (e, cs)
  | [] => none
where
  /-- The character of an escape that gives its code. -/
  coded (count : Nat) (cs : List Char) : Option (Char × List Char) := do
    let (code, rest) ← hexDigits? count 0 cs
    let c ← scalarChar? code
    return (c, rest)

/-- The characters of a quoted scalar, newest first, and the text behind its
closing quote. -/
def quotedBody (double : Bool) : Nat → (acc : List Char) → List Char →
    Option (List Char × List Char)
  | 0, _, _ => none
  | _ + 1, _, [] => none
  | fuel + 1, acc, c :: cs =>
    if c = '\n' then
      let (lineEnds, column, rest) := blankLines 0 0 (c :: cs)
      if column = 0 && atDocumentMark rest then none
      else quotedBody double fuel (folded lineEnds ++ acc.dropWhile isBlank) rest
    else if double then
      if c = '"' then some (acc, cs)
      else if c = '\\' then
        match cs with
        | '\n' :: _ => quotedBody double fuel acc (blankLines 0 0 cs).2.2
        | _ =>
          match escape? cs with
          | some (e, rest) => quotedBody double fuel (e :: acc) rest
          | none => none
      else quotedBody double fuel (c :: acc) cs
    else if c = '\'' then
      match cs with
      | '\'' :: rest => quotedBody double fuel ('\'' :: acc) rest
      | _ => some (acc, cs)
    else quotedBody double fuel (c :: acc) cs

/-- A quoted scalar, whether it stands on one line, and the text behind it. -/
def quoted? (cs : List Char) : Option (String × Bool × List Char) :=
  match cs with
  | [] => none
  | q :: body =>
    (quotedBody (q = '"') (body.length + 1) [] body).map fun (acc, rest) =>
      (String.ofList acc.reverse, !(body.take (body.length - rest.length)).contains '\n', rest)

/-! ## Keys -/

/-- The text behind the colon that follows a key, where one does. -/
def keyColon? (flow : Bool) (cs : List Char) : Option (List Char) :=
  match cs.dropWhile isBlank with
  | ':' :: rest =>
    if atBreak rest || (flow && (rest.head?.map isFlowMark).getD false) then some rest else none
  | _ => none

/-- A key on one line and the text behind its colon, where there is one ahead. -/
def keyAhead? (flow : Bool) (cs : List Char) : Option (Node × List Char) :=
  match cs with
  | [] => none
  | c :: _ =>
    if c = '"' || c = '\'' then
      match quoted? cs with
      | some (text, true, rest) => (keyColon? flow rest).map fun rest => (.scalar text false, rest)
      | _ => none
    else if startsPlain flow cs then
      let (acc, rest) := plainLine flow [] cs
      (keyColon? flow rest).map fun rest =>
        (.scalar (String.ofList (acc.dropWhile isBlank).reverse) true, rest)
    else none

/-! ## Literal and folded blocks -/

/-- The rest of a line, and the text behind its end. -/
def splitLine (cs : List Char) : List Char × List Char :=
  (cs.takeWhile (· ≠ '\n'), (cs.dropWhile (· ≠ '\n')).drop 1)

/-- The lines of a block that is indented by `width` or more, or not yet known, and
the text behind them. -/
def blockLines (indent : Int) : Nat → (width : Option Nat) → (acc : List (List Char)) →
    List Char → List (List Char) × List Char
  | 0, _, acc, cs => (acc.reverse, cs)
  | _ + 1, _, acc, [] => (acc.reverse, [])
  | fuel + 1, width, acc, cs =>
    let (line, rest) := splitLine cs
    let spaces := (line.takeWhile (· = ' ')).length
    if spaces = line.length then
      blockLines indent fuel width (line.drop (width.getD spaces) :: acc) rest
    else
      let width := width.getD spaces
      if spaces < width || (spaces : Int) ≤ indent || (spaces = 0 && atDocumentMark line) then
        (acc.reverse, cs)
      else blockLines indent fuel (some width) (line.drop width :: acc) rest

/-- The marks behind the sign of a block: the depth of its indentation and how its
end is cut. -/
def blockMarks? : List Char → Option (Option Nat × Option Char)
  | [] => some (none, none)
  | [c] => one c
  | [c, d] =>
    match one c, one d with
    | some (some n, none), some (none, some k) => some (some n, some k)
    | some (none, some k), some (some n, none) => some (some n, some k)
    | _, _ => none
  | _ => none
where
  /-- The meaning of one mark. -/
  one (c : Char) : Option (Option Nat × Option Char) :=
    if c = '+' || c = '-' then some (none, some c)
    else if '1' ≤ c ∧ c ≤ '9' then some (some (c.toNat - '0'.toNat), none)
    else none

/-- The lines of a folded block joined: a line end between two lines of text that
are not indented further is a space. -/
def foldLines : List (List Char) → List Char
  | [] => []
  | [line] => line
  | line :: next :: rest =>
    let tail := foldLines (next :: rest)
    if line.isEmpty then '\n' :: tail
    else if (line.head?.map isBlank).getD false || (next.head?.map isBlank).getD false then
      line ++ '\n' :: tail
    else if next.isEmpty then line ++ tail
    else line ++ ' ' :: tail

/-- A literal or folded block behind its sign, and the text behind it. -/
def blockScalar? (fold : Bool) (indent : Int) (cs : List Char) : Option (Node × List Char) := do
  let (header, body) := splitLine cs
  let marks := header.takeWhile fun c => !isBlank c
  let behind := (header.drop marks.length).dropWhile isBlank
  if !(behind.isEmpty || (behind.head? = some '#' && marks.length < header.length)) then none
  let (depth, cut) ← blockMarks? marks
  let width := depth.map fun d => d + (max indent 0).toNat
  let (lines, rest) := blockLines indent (body.length + 1) width [] body
  let kept := (lines.reverse.dropWhile (·.isEmpty)).reverse
  let trailing := lines.length - kept.length
  let joined := if fold then foldLines kept else List.intercalate ['\n'] kept
  let ending := match cut with
    | some '-' => []
    | some '+' => List.replicate (trailing + (if kept.isEmpty then 0 else 1)) '\n'
    | _ => if kept.isEmpty then [] else ['\n']
  return (.scalar (String.ofList (joined ++ ending)) false, rest)

/-! ## Nodes -/

/-- The name behind the sign of an anchor or an alias, and the text behind it. -/
def anchorName? (cs : List Char) : Option (String × List Char) :=
  let name := cs.takeWhile fun c => c.isAlphanum || c = '_' || c = '-'
  let rest := cs.drop name.length
  if name.isEmpty || !(atBreak rest || (rest.head?.map fun c => isFlowMark c || c = ':').getD false)
  then none else some (String.ofList name, rest)

/-- The node with an anchor. -/
def Cursor.aliased? (c : Cursor) (name : String) : Option Node :=
  (c.anchors.find? fun a => a.1 == name).map (·.2)

/-- The cursor with a node under an anchor. -/
def Cursor.withAnchor (c : Cursor) (name : String) (node : Node) : Cursor :=
  { c with anchors := (name, node) :: c.anchors }

/-- The cursor at a text whose column does not matter. -/
def Cursor.moveTo (c : Cursor) (rest : List Char) : Cursor := { c with rest := rest }

mutual

/-- The node ahead inside a block.  It is empty unless what follows is indented
deeper than `indent`.  A block collection may start here where `opens` says so, or
on another line; a sequence then also at the column `list`. -/
def block (indent : Int) (list : Option Nat) (opens : Bool) : Nat → Cursor →
    Option (Node × Cursor)
  | 0, _ => none
  | fuel + 1, start =>
    let (c, crossed) := start.skip false !opens
    let opens := opens || crossed
    match c.rest with
    | [] => some (.empty, c)
    | ch :: cs =>
      if opens && c.column = 0 && atDocumentMark c.rest then some (.empty, c)
      else if opens && ch = '-' && atBreak cs && (indent < c.column || list = some c.column) then
        sequence c.column [] fuel c
      else if crossed && (c.column : Int) ≤ indent then some (.empty, c)
      else if ch = '&' then
        match anchorName? cs with
        | none => none
        | some (name, rest) =>
          match block indent list opens fuel (c.moveTo rest) with
          | some (node, c) => some (node, c.withAnchor name node)
          | none => none
      else if ch = '!' then
        block indent list opens fuel (c.moveTo (c.rest.dropWhile fun ch => !(isBlank ch || ch = '\n')))
      else if ch = '*' then
        match anchorName? cs with
        | none => none
        | some (name, rest) => (c.aliased? name).map fun node => (node, c.moveTo rest)
      else if ch = '|' || ch = '>' then
        (blockScalar? (ch = '>') indent cs).map fun (node, rest) =>
          (node, { c with rest := rest, column := 0 })
      else if ch = '[' || ch = '\x7b' then flow fuel c
      else if opens && (keyAhead? false c.rest).isSome then mapping c.column [] fuel c
      else if ch = '"' || ch = '\'' then
        (quoted? c.rest).map fun (text, _, rest) => (.scalar text false, c.moveTo rest)
      else if startsPlain false c.rest then
        let (line, rest) := plainLine false [] c.rest
        let (acc, rest) := plainRest false indent (rest.length + 1) line rest
        some (.scalar (String.ofList acc.reverse) true, c.moveTo rest)
      else none

/-- The entries of a block mapping at a column, newest first in `acc`. -/
def mapping (column : Nat) (acc : List (Node × Node)) : Nat → Cursor → Option (Node × Cursor)
  | 0, _ => none
  | fuel + 1, c =>
    match keyAhead? false c.rest with
    | none => none
    | some (key, rest) =>
      match block column (some column) false fuel (c.moveTo rest) with
      | none => none
      | some (value, c) =>
        let entries := (key, value) :: acc
        let (next, crossed) := c.skip false true
        let fresh := crossed || next.column = 0
        if next.rest.isEmpty then some (.mapping entries.reverse, next)
        else if !fresh then none
        else if next.column = 0 && atDocumentMark next.rest then some (.mapping entries.reverse, next)
        else if next.column < column then some (.mapping entries.reverse, next)
        else if next.column = column then mapping column entries fuel next
        else none

/-- The items of a block sequence at a column, newest first in `acc`. -/
def sequence (column : Nat) (acc : List Node) : Nat → Cursor → Option (Node × Cursor)
  | 0, _ => none
  | fuel + 1, c =>
    match block column none true fuel { c with rest := c.rest.drop 1, column := column + 1 } with
    | none => none
    | some (item, c) =>
      let items := item :: acc
      let (next, crossed) := c.skip false true
      let fresh := crossed || next.column = 0
      if next.rest.isEmpty then some (.sequence items.reverse, next)
      else if !fresh then none
      else if next.column = 0 && atDocumentMark next.rest then some (.sequence items.reverse, next)
      else if next.column < column then some (.sequence items.reverse, next)
      else if next.column = column then
        match next.rest with
        | '-' :: cs =>
          if atBreak cs then sequence column items fuel next
          else some (.sequence items.reverse, next)
        | _ => some (.sequence items.reverse, next)
      else none

/-- The node ahead inside brackets. -/
def flow : Nat → Cursor → Option (Node × Cursor)
  | 0, _ => none
  | fuel + 1, start =>
    let c := (start.skip true true).1
    match c.rest with
    | [] => none
    | ch :: cs =>
      if ch = '[' then flowItems [] fuel (c.moveTo cs)
      else if ch = '\x7b' then flowEntries [] fuel (c.moveTo cs)
      else if ch = '&' then
        match anchorName? cs with
        | none => none
        | some (name, rest) =>
          match flow fuel (c.moveTo rest) with
          | some (node, c) => some (node, c.withAnchor name node)
          | none => none
      else if ch = '!' then
        flow fuel (c.moveTo (c.rest.dropWhile fun ch => !(isBlank ch || ch = '\n')))
      else if ch = '*' then
        match anchorName? cs with
        | none => none
        | some (name, rest) => (c.aliased? name).map fun node => (node, c.moveTo rest)
      else if ch = '"' || ch = '\'' then
        (quoted? c.rest).map fun (text, _, rest) => (.scalar text false, c.moveTo rest)
      else if startsPlain true c.rest then
        let (line, rest) := plainLine true [] c.rest
        let (acc, rest) := plainRest true 0 (rest.length + 1) line rest
        some (.scalar (String.ofList acc.reverse) true, c.moveTo rest)
      else if ch = ',' || ch = ']' || ch = '\x7d' then some (.empty, c)
      else none

/-- The items of a sequence in brackets, newest first in `acc`. -/
def flowItems (acc : List Node) : Nat → Cursor → Option (Node × Cursor)
  | 0, _ => none
  | fuel + 1, start =>
    let c := (start.skip true true).1
    match c.rest with
    | [] => none
    | ']' :: rest => some (.sequence acc.reverse, c.moveTo rest)
    | ',' :: _ => none
    | _ =>
      match flow fuel c with
      | none => none
      | some (item, c) =>
        match keyColon? true c.rest with
        | some rest =>
          match flow fuel (c.moveTo rest) with
          | some (value, c) => flowNext (.mapping [(item, value)] :: acc) fuel c
          | none => none
        | none => flowNext (item :: acc) fuel c

/-- The rest of a sequence in brackets behind an item. -/
def flowNext (acc : List Node) : Nat → Cursor → Option (Node × Cursor)
  | 0, _ => none
  | fuel + 1, start =>
    let c := (start.skip true true).1
    match c.rest with
    | ',' :: rest => flowItems acc fuel (c.moveTo rest)
    | ']' :: rest => some (.sequence acc.reverse, c.moveTo rest)
    | _ => none

/-- The entries of a mapping in brackets, newest first in `acc`. -/
def flowEntries (acc : List (Node × Node)) : Nat → Cursor → Option (Node × Cursor)
  | 0, _ => none
  | fuel + 1, start =>
    let c := (start.skip true true).1
    match c.rest with
    | [] => none
    | '\x7d' :: rest => some (.mapping acc.reverse, c.moveTo rest)
    | ',' :: _ => none
    | _ =>
      match flow fuel c with
      | none => none
      | some (key, c) =>
        let c := (c.skip true true).1
        match c.rest with
        | ':' :: rest =>
          match flow fuel (c.moveTo rest) with
          | none => none
          | some (value, c) => flowEntriesNext ((key, value) :: acc) fuel c
        | _ => flowEntriesNext ((key, .empty) :: acc) fuel c

/-- The rest of a mapping in brackets behind an entry. -/
def flowEntriesNext (acc : List (Node × Node)) : Nat → Cursor → Option (Node × Cursor)
  | 0, _ => none
  | fuel + 1, start =>
    let c := (start.skip true true).1
    match c.rest with
    | ',' :: rest => flowEntries acc fuel (c.moveTo rest)
    | '\x7d' :: rest => some (.mapping acc.reverse, c.moveTo rest)
    | _ => none

end

/-! ## Documents -/

/-- The text behind directives, and whether there were any. -/
def skipDirectives : Nat → (found : Bool) → List Char → List Char × Bool
  | 0, found, cs => (cs, found)
  | fuel + 1, found, cs =>
    match (skipFrom false false false false 0 cs).1 with
    | '%' :: rest => skipDirectives fuel true (splitLine rest).2
    | _ => (cs, found)

/-- Nothing but the end of the document follows. -/
def endsDocument (c : Cursor) : Bool :=
  let (next, crossed) := c.skip false true
  match next.rest with
  | [] => true
  | '.' :: '.' :: '.' :: rest =>
    (crossed || next.column = 0) && next.column = 0 && atBreak rest
      && (skipFrom false true false false 3 rest).1.isEmpty
  | _ => false

/-- The node of a text that holds one document, where the text is well formed. -/
def Node.ofText? (s : String) : Option Node := do
  let cs := unifyLineEnds s.toList
  let cs := if cs.head? = some '\ufeff' then cs.drop 1 else cs
  if !cs.all isPrintable then none
  let (cs, directives) := skipDirectives (cs.length + 1) false cs
  let (rest, column, _) := skipFrom false false false false 0 cs
  let start : Cursor ←
    match rest with
    | '-' :: '-' :: '-' :: behind =>
      if column = 0 && atBreak behind then some ⟨behind, 3, []⟩
      else if directives then none else some ⟨rest, column, []⟩
    | _ => if directives then none else some ⟨rest, column, []⟩
  let (node, c) ← block (-1) none (!(start.column = 3 && atBreak start.rest)) (4 * cs.length + 16) start
  if endsDocument c then some node else none

end ChainIndex.Yaml
