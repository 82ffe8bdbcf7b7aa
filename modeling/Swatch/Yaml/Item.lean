/-
Module: Swatch.Yaml.Item
Purpose: The items of a YAML text, with its indentation made explicit.
Main exports:
  Yaml.Item, Yaml.Reader, Yaml.itemsOf
-/
import Swatch.Yaml.Property

namespace Swatch.Yaml

/-- A piece of a YAML text.  Block collections have no brackets, so their starts and ends
are found from the indentation. -/
inductive Item where
  | documentStart
  | documentEnd
  | mappingStart
  | sequenceStart
  | blockEnd
  | flowMappingStart
  | flowMappingEnd
  | flowSequenceStart
  | flowSequenceEnd
  | entry
  | comma
  | key
  | value
  | scalar (style : Style) (text : Text)
  /-- A number by which the node that follows is referred to. -/
  | anchor (number : Nat)
  /-- What refers to the node with that number. -/
  | reference (number : Nat)
  /-- The tag of the node that follows. -/
  | tag (text : Text)
  | directive
deriving DecidableEq, Repr, Inhabited

/-- A place where a key may have started: what was read from there on is a key if a colon
follows in time. -/
structure Candidate where
  /-- How many items came before it. -/
  index : Nat
  line : Nat
  column : Nat
  /-- Whether nothing but a key may stand there, because the innermost block collection
  starts at the same column. -/
  required : Bool
deriving DecidableEq, Repr, Inhabited

/-- How far a text was read. -/
structure Reader where
  cursor : Cursor
  /-- The columns of the open block collections, innermost first. -/
  columns : List Nat := []
  /-- The candidate inside the innermost open bracket. -/
  candidate : Option Candidate := none
  /-- The candidates outside of each open bracket, innermost first. -/
  outer : List (Option Candidate) := []
  /-- Whether a key may start here: at the start of a line and where a collection may. -/
  keyAllowed : Bool := true
  /-- The names of nodes, each with the number that it has at last. -/
  names : List (Text × Nat) := []
  /-- Whether a directive told the version. -/
  versioned : Bool := false
  /-- The handles of directives, and what they stand for. -/
  handles : List (Text × Text) := []
  /-- What was read, latest first. -/
  items : List Item := []
deriving Repr, Inhabited

namespace Reader

/-- Whether some bracket is open: then indentation does not count. -/
def inFlow (r : Reader) : Bool := !r.outer.isEmpty

/-- The least column of a text that belongs to the innermost block collection. -/
def leastColumn (r : Reader) : Nat :=
  match r.columns with
  | [] => 0
  | column :: _ => column + 1

/-- One more item. -/
def emit (r : Reader) (item : Item) : Reader := { r with items := item :: r.items }

/-- Goes on `count` characters inside the line. -/
def skip (r : Reader) (count : Nat) : Reader :=
  { r with cursor :=
      ⟨r.cursor.line, r.cursor.column + count, r.cursor.rest.drop count⟩ }

/-- Goes on inside the line, up to where only `rest` is left. -/
def skipTo (r : Reader) (rest : Text) : Reader :=
  r.skip (r.cursor.rest.length - rest.length)

/-!
### Indentation
-/

/-- Opens a block collection at a column, unless one is open there or deeper. -/
def openBlock (r : Reader) (column : Nat) (start : Item) : Reader :=
  if !r.inFlow && r.leastColumn ≤ column then
    { r with columns := column :: r.columns, items := start :: r.items }
  else r

/-- Closes the block collections that do not hold a text at `column`; without a column, all
of them. -/
def closedBlocks (column : Option Nat) : List Nat → List Item → List Nat × List Item
  | [], items => ([], items)
  | c :: outer, items =>
    if column.any (c ≤ ·) then (c :: outer, items)
    else closedBlocks column outer (.blockEnd :: items)

/-- Closes the block collections that a text at `column` ends. -/
def closeBlocks (r : Reader) (column : Option Nat) : Reader :=
  if r.inFlow then r
  else
    let (columns, items) := closedBlocks column r.columns r.items
    { r with columns, items }

/-!
### Candidates for keys

A key has to end on the line where it starts, and within 1024 characters.  A candidate that
is required and turns out to be no key is an error.
-/

/-- Gives a candidate up. -/
def givenUp (candidate : Option Candidate) : Option (Option Candidate) :=
  if candidate.any Candidate.required then none else some none

/-- Gives the candidate of the innermost bracket up. -/
def forget (r : Reader) : Option Reader := do
  let candidate ← givenUp r.candidate
  return { r with candidate }

/-- Whether a candidate can still be a key that ends at a place. -/
def reaches (line column : Nat) (c : Candidate) : Bool :=
  line ≤ c.line && column ≤ c.column + 1024

/-- Gives a candidate up if it cannot be a key any more. -/
def renewed (line column : Nat) (candidate : Option Candidate) : Option (Option Candidate) :=
  if candidate.all (reaches line column) then some candidate else givenUp candidate

/-- Gives up all candidates that cannot be keys any more. -/
def renewCandidates (r : Reader) : Option Reader := do
  let candidate ← renewed r.cursor.line r.cursor.column r.candidate
  let outer ← r.outer.mapM (renewed r.cursor.line r.cursor.column)
  return { r with candidate, outer }

/-- Takes the cursor as a new candidate, if a key may start there. -/
def propose (r : Reader) : Option Reader :=
  if r.keyAllowed then do
    let _ ← givenUp r.candidate
    let column := r.cursor.column
    let required := !r.inFlow && r.columns.head? == some column
    return { r with candidate := some ⟨r.items.length, r.cursor.line, column, required⟩ }
  else some r

/-- Makes a candidate a key: its start, and the one of a mapping where there is none yet, go
before the items that were read since. -/
def addKeyBefore (r : Reader) (c : Candidate) : Reader :=
  let count := r.items.length - c.index
  let since := r.items.take count
  let before : Reader := { r with items := r.items.drop count }
  let keyed := (before.openBlock c.column .mappingStart).emit .key
  { keyed with items := since ++ keyed.items, candidate := none }

/-!
### Items
-/

/-- Skips blanks, comments and ends of lines.  A key may start on a new line.  A tab is no
blank where a key may start. -/
def skipBlanks (flow keyAllowed comment : Bool) (line column : Nat) : Text → Bool × Cursor
  | [] => (keyAllowed, ⟨line, column, []⟩)
  | c :: s =>
    if isBreak c then skipBlanks flow (keyAllowed || !flow) false (line + 1) 0 s
    else if comment then skipBlanks flow keyAllowed true line (column + 1) s
    else if c == ' ' || (c == '\t' && (flow || !keyAllowed)) then
      skipBlanks flow keyAllowed false line (column + 1) s
    else if c == '#' then skipBlanks flow keyAllowed true line (column + 1) s
    else (keyAllowed, ⟨line, column, c :: s⟩)

/-- Goes to the start of the next item. -/
def advance (r : Reader) : Option Reader := do
  let c := r.cursor
  let (keyAllowed, cursor) :=
    skipBlanks r.inFlow r.keyAllowed false c.line c.column c.rest
  let r ← { r with cursor, keyAllowed }.renewCandidates
  return r.closeBlocks (some cursor.column)

/-- A bracket that opens; a key may start in it, and the whole may be a key itself. -/
def addOpening (r : Reader) (item : Item) : Option Reader := do
  let r ← r.propose
  return { (r.emit item).skip 1 with
    candidate := none, outer := r.candidate :: r.outer, keyAllowed := true }

/-- A bracket that closes. -/
def addClosing (r : Reader) (item : Item) : Option Reader := do
  let r ← r.forget
  let r := { (r.emit item).skip 1 with keyAllowed := false }
  match r.outer with
  | [] => return r
  | candidate :: outer => return { r with candidate, outer }

/-- A comma between brackets. -/
def addComma (r : Reader) : Option Reader := do
  let r ← r.forget
  return { (r.emit .comma).skip 1 with keyAllowed := true }

/-- The mark `-` of a sequence. -/
def addEntry (r : Reader) : Option Reader := do
  if !r.inFlow && !r.keyAllowed then none
  let r ← (r.openBlock r.cursor.column .sequenceStart).forget
  return { (r.emit .entry).skip 1 with keyAllowed := true }

/-- The mark `?` of a key. -/
def addKey (r : Reader) : Option Reader := do
  if !r.inFlow && !r.keyAllowed then none
  let r ← (r.openBlock r.cursor.column .mappingStart).forget
  return { (r.emit .key).skip 1 with keyAllowed := !r.inFlow }

/-- The mark `:` of a value.  Without a key before it in the line it has to start a line. -/
def addValue (r : Reader) : Option Reader :=
  match r.candidate with
  | some c => some { ((r.addKeyBefore c).emit .value).skip 1 with keyAllowed := false }
  | none =>
    if r.inFlow || r.keyAllowed then
      some { ((r.openBlock r.cursor.column .mappingStart).emit .value).skip 1 with
        keyAllowed := !r.inFlow }
    else none

/-- A border of a document. -/
def addBorder (r : Reader) (item : Item) : Option Reader := do
  let r ← (r.closeBlocks none).forget
  return { (r.emit item).skip 3 with keyAllowed := false }

/-- A scalar in quotes. -/
def addQuoted (r : Reader) (mark : Char) (s : Text) : Option Reader := do
  let r ← r.propose
  let c := r.cursor
  let (text, cursor) ←
    if mark == '"' then readDouble c.line (c.column + 1) .none [] s
    else readSingle c.line (c.column + 1) .none [] s
  return { r.emit (.scalar .quoted text) with cursor, keyAllowed := false }

/-- A plain scalar.  If it spans lines, a key may start after it. -/
def addPlain (r : Reader) : Option Reader := do
  let r ← r.propose
  let c := r.cursor
  let (text, lines, cursor) ←
    readPlain r.inFlow r.leastColumn c.line c.column .none [] c.rest
  return { r.emit (.scalar .plain text) with cursor, keyAllowed := lines }

/-- A block scalar; a key may start after it. -/
def addBlockScalar (r : Reader) (folds : Bool) (s : Text) : Option Reader := do
  let r ← r.forget
  let (text, cursor) ← readBlockScalar folds r.leastColumn r.cursor.line s
  let style := if folds then Style.folded else .literal
  return { r.emit (.scalar style text) with cursor, keyAllowed := true }

/-- The mark `&` of a node with a name.  Its number is the count of the names before it; a name
that is given again gets a new number, which the next name gets too. -/
def addAnchor (r : Reader) (s : Text) : Option Reader := do
  let r ← r.propose
  let (name, rest) ← readAnchor s
  let number := r.names.length
  let names := (name, number) :: r.names.filter (·.1 != name)
  return { (r.emit (.anchor number)).skipTo rest with names, keyAllowed := false }

/-- The mark `*` of what refers to a node by its name, which stands before it. -/
def addReference (r : Reader) (s : Text) : Option Reader := do
  let r ← r.propose
  let (name, rest) ← readAnchor s
  let (_, number) ← r.names.find? (·.1 == name)
  return { (r.emit (.reference number)).skipTo rest with keyAllowed := false }

/-- The mark `!` of a tag, which ends before a blank, or before a comma inside brackets. -/
def addTag (r : Reader) (s : Text) : Option Reader := do
  let r ← r.propose
  let (tag, rest) ← readTag s
  if !(startsBlank rest || (r.inFlow && rest.head? == some ',')) then none
  let text ← tag.text? r.handles
  return { (r.emit (.tag text)).skipTo rest with keyAllowed := false }

/-- A directive with the rest of its line.  None is given twice. -/
def addDirective (r : Reader) (s : Text) : Option Reader := do
  let r ← (r.closeBlocks none).forget
  let (directive, rest) ← readDirective s
  let cursor : Cursor := ⟨r.cursor.line + 1, 0, rest⟩
  let r := { r.emit .directive with cursor, keyAllowed := false }
  match directive with
  | .version => if r.versioned then none else return { r with versioned := true }
  | .handle handle start =>
    if r.handles.any (·.1 == handle) then none
    else return { r with handles := r.handles ++ [(handle, start)] }

/-- The characters that no plain scalar starts with. -/
def isIndicator (c : Char) : Bool :=
  "-?:,[]\x7b\x7d#&*!|>'\"%@\x60".toList.contains c

/-- Whether a plain scalar starts with `c`, which `s` follows. -/
def startsPlain (flow : Bool) (c : Char) (s : Text) : Bool :=
  !(isIndicator c || isInline c) || (c == '-' && !s.head?.any isInline) ||
    (!flow && (c == '?' || c == ':') && !startsBlank s)

/-- Reads the item that starts at the cursor with `c`, which `s` follows. -/
def readItem (r : Reader) (c : Char) (s : Text) : Option Reader :=
  let flow := r.inFlow
  let separate := flow || startsBlank s
  let atStart := r.cursor.column == 0
  if atStart && c == '%' then r.addDirective s
  else if atStart && isBorder '-' (c :: s) then r.addBorder .documentStart
  else if atStart && isBorder '.' (c :: s) then r.addBorder .documentEnd
  else match c with
  | '[' => r.addOpening .flowSequenceStart
  | '\x7b' => r.addOpening .flowMappingStart
  | ']' => r.addClosing .flowSequenceEnd
  | '\x7d' => r.addClosing .flowMappingEnd
  | ',' => r.addComma
  | '"' => r.addQuoted c s
  | '\'' => r.addQuoted c s
  | '&' => r.addAnchor s
  | '*' => r.addReference s
  | '!' => r.addTag s
  | _ =>
    if c == '-' && startsBlank s then r.addEntry
    else if c == '?' && separate then r.addKey
    else if c == ':' && separate then r.addValue
    else if (c == '|' || c == '>') && !flow then r.addBlockScalar (c == '>') s
    else if startsPlain flow c s then r.addPlain
    else none

/-- Reads all items.  Each takes at least one character, so as many steps as there are
characters are enough. -/
def readAll : (steps : Nat) → Reader → Option (List Item)
  | 0, _ => none
  | steps + 1, r => do
    let r ← r.advance
    match r.cursor.rest with
    | [] =>
      let r ← (r.closeBlocks none).forget
      return r.items.reverse
    | c :: s => do
      let r ← r.readItem c s
      readAll steps r

end Reader

/-- A character that a YAML text may hold. -/
def isAllowed (c : Char) : Bool :=
  let n := c.toNat
  c == '\t' || c == '\n' || (0x20 ≤ n && n ≤ 0x7e) || (0xa0 ≤ n && n ≤ 0xfffd) ||
    0x10000 ≤ n

/-- The text with every end of a line as a line feed. -/
def unifyLines : Text → Text
  | '\r' :: '\n' :: s => '\n' :: unifyLines s
  | '\r' :: s => '\n' :: unifyLines s
  | '\u0085' :: s => '\n' :: unifyLines s
  | c :: s => c :: unifyLines s
  | [] => []

/-- The place after a leading byte order mark, which takes a column. -/
def startCursor : Text → Cursor
  | '\uFEFF' :: s => ⟨0, 1, s⟩
  | s => ⟨0, 0, s⟩

/-- The items of a YAML text, if it can be cut into items. -/
def itemsOf (s : Text) : Option (List Item) :=
  let s := unifyLines s
  if s.all isAllowed then Reader.readAll (s.length + 1) { cursor := startCursor s } else none

end Swatch.Yaml
