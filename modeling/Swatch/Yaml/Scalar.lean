/-
Module: Swatch.Yaml.Scalar
Purpose: Reading the scalars of a YAML document.
Main exports:
  Yaml.readPlain, Yaml.readSingle, Yaml.readDouble, Yaml.readBlockScalar
-/
import Swatch.Yaml.Basic

namespace Swatch.Yaml

/-!
### Plain scalars
-/

/-- A character that ends a plain scalar inside brackets. -/
def isFlowMark (c : Char) : Bool :=
  c == ',' || c == '[' || c == ']' || c == '\x7b' || c == '\x7d'

/-- Whether a plain scalar ends before `c`, which `s` follows. -/
def endsPlain (flow : Bool) (c : Char) (s : Text) : Bool :=
  (c == ':' && startsBlank s) || (flow && isFlowMark c)

/-- Inside brackets a colon must not stand right before one of their marks. -/
def isMisplacedColon (flow : Bool) (c : Char) (s : Text) : Bool :=
  flow && c == ':' && s.head?.any fun d => isFlowMark d || d == '?'

/-- Reads the rest of a plain scalar: its text, whether the end of a line was passed, and
the place after it and the blanks that follow.  `least` is the column from which on a later
line continues it, `gap` stands before the next piece and `text` is what was read, latest
character first.  A tab must not stand for indentation. -/
def readPlain (flow : Bool) (least line column : Nat) (gap : Gap) (text : Text) :
    Text → Option (Text × Bool × Cursor)
  | [] => some (text.reverse, gap.isLines, ⟨line, column, []⟩)
  | c :: s =>
    if isBreak c then readPlain flow least (line + 1) 0 (gap.newline c) text s
    else if isInline c then
      if gap.isLines && column < least && c == '\t' then none
      else readPlain flow least line (column + 1) (gap.blank c) text s
    else
      let outside := atBorder column (c :: s) || (c == '#' && gap != .none) ||
        (gap.isLines && !flow && column < least) || endsPlain flow c s
      if outside then some (text.reverse, gap.isLines, ⟨line, column, c :: s⟩)
      else if isMisplacedColon flow c s then none
      else readPlain flow least line (column + 1) .none (c :: (gap.text.reverse ++ text)) s

/-!
### Quoted scalars
-/

/-- Reads the rest of a scalar in single quotes, where a quote is written twice. -/
def readSingle (line column : Nat) (gap : Gap) (text : Text) : Text → Option (Text × Cursor)
  | [] => none
  | '\'' :: '\'' :: s =>
    readSingle line (column + 2) .none ('\'' :: (gap.text.reverse ++ text)) s
  | c :: s =>
    if atBorder column (c :: s) then none
    else if c == '\'' then
      some ((gap.text.reverse ++ text).reverse, ⟨line, column + 1, s⟩)
    else if isBreak c then readSingle (line + 1) 0 (gap.newline c) text s
    else if isInline c then readSingle line (column + 1) (gap.blank c) text s
    else readSingle line (column + 1) .none (c :: (gap.text.reverse ++ text)) s

/-- The character of an escape of one letter. -/
def escapedChar? : Char → Option Char
  | '0' => some '\x00'
  | 'a' => some '\x07'
  | 'b' => some '\x08'
  | 't' => some '\t'
  | '\t' => some '\t'
  | 'n' => some '\n'
  | 'v' => some '\x0b'
  | 'f' => some '\x0c'
  | 'r' => some '\r'
  | 'e' => some '\x1b'
  | ' ' => some ' '
  | '"' => some '"'
  | '/' => some '/'
  | '\\' => some '\\'
  | 'N' => some '\u0085'
  | '_' => some '\u00a0'
  | 'L' => some '\u2028'
  | 'P' => some '\u2029'
  | _ => none

/-- The character whose code point the hexadecimal digits spell. -/
def charOfDigits? (digits : Text) : Option Char :=
  let code := digits.foldl (fun n c => 16 * n + hexValue c) 0
  if digits.all isHexDigit && code.isValidChar then some (Char.ofNat code) else none

/-- Reads the rest of a scalar in double quotes, where a backslash starts an escape. -/
def readDouble (line column : Nat) (gap : Gap) (text : Text) : Text → Option (Text × Cursor)
  | [] => none
  | '\\' :: 'x' :: a :: b :: s => do
    let c ← charOfDigits? [a, b]
    readDouble line (column + 4) .none (c :: (gap.text.reverse ++ text)) s
  | '\\' :: 'u' :: a :: b :: c :: d :: s => do
    let c ← charOfDigits? [a, b, c, d]
    readDouble line (column + 6) .none (c :: (gap.text.reverse ++ text)) s
  | '\\' :: 'U' :: a :: b :: c :: d :: e :: f :: g :: h :: s => do
    let c ← charOfDigits? [a, b, c, d, e, f, g, h]
    readDouble line (column + 10) .none (c :: (gap.text.reverse ++ text)) s
  | '\\' :: c :: s =>
    if isBreak c then readDouble (line + 1) 0 (.lines none []) (gap.text.reverse ++ text) s
    else do
      let c ← escapedChar? c
      readDouble line (column + 2) .none (c :: (gap.text.reverse ++ text)) s
  | c :: s =>
    if atBorder column (c :: s) then none
    else if c == '"' then some ((gap.text.reverse ++ text).reverse, ⟨line, column + 1, s⟩)
    else if isBreak c then readDouble (line + 1) 0 (gap.newline c) text s
    else if isInline c then readDouble line (column + 1) (gap.blank c) text s
    else readDouble line (column + 1) .none (c :: (gap.text.reverse ++ text)) s

/-!
### Block scalars
-/

/-- What a block scalar does with the ends of lines at its end. -/
inductive Chomping where
  | strip
  | clip
  | keep
deriving DecidableEq, Repr, Inhabited

/-- The header of a block scalar: what happens at its end, and how much deeper than its
surroundings it is indented, if that is written. -/
structure BlockHeader where
  chomping : Chomping := .clip
  deeper : Option Nat := none
deriving DecidableEq, Repr, Inhabited

/-- A mark for the end of the scalar. -/
def chompingMark? : Char → Option Chomping
  | '+' => some .keep
  | '-' => some .strip
  | _ => none

/-- A digit for the indentation, which is not zero. -/
def depthMark? (c : Char) : Option Nat :=
  if c.isDigit && c != '0' then some (digitValue c) else none

/-- Reads the marks of a header, at most one of each kind in either order.  Zero is no
indentation. -/
def readHeader (s : Text) : Option (BlockHeader × Text) :=
  let misplaced (rest : Text) : Bool := rest.head? == some '0'
  match s with
  | [] => some ({}, [])
  | a :: rest =>
    match chompingMark? a, depthMark? a with
    | some chomping, _ =>
      match rest.head?.bind depthMark? with
      | some depth => some (⟨chomping, some depth⟩, rest.tail)
      | none => if misplaced rest then none else some (⟨chomping, none⟩, rest)
    | none, some depth =>
      match rest.head?.bind chompingMark? with
      | some chomping => some (⟨chomping, some depth⟩, rest.tail)
      | none => some (⟨.clip, some depth⟩, rest)
    | none, none => if misplaced s then none else some ({}, s)

/-- The rest of a line that holds nothing but blanks and a comment, without its end. -/
def skipLine (s : Text) : Option Text :=
  let s := s.dropWhile isInline
  let s := if s.head? = some '#' then s.dropWhile (!isBreak ·) else s
  match s with
  | [] => some []
  | c :: s => if isBreak c then some s else none

/-- The greatest column that the empty lines before a block scalar and its first line
reach.  A tab must not stand for indentation. -/
def detectIndent (column greatest : Nat) : Text → Option Nat
  | [] => some (max greatest column)
  | c :: s =>
    if c == ' ' then detectIndent (column + 1) greatest s
    else if isBreak c then detectIndent 0 (max greatest column) s
    else if c == '\t' then none
    else some (max greatest column)

/-- A line of a block scalar, or the end of the lines that belong to it. -/
structure BlockState where
  /-- The end of the last line with content. -/
  lead : Text := []
  /-- The ends of the empty lines after it. -/
  trailing : Text := []
  /-- Whether the last line with content started with a blank. -/
  blankLead : Bool := false
  /-- What was read, latest character first. -/
  text : Text := []
deriving DecidableEq, Repr, Inhabited

namespace BlockState

/-- Starts a line with content.  Where lines are folded, the end of the line before it
becomes a space, unless one of the two lines starts with a blank. -/
def startLine (folds blank : Bool) (b : BlockState) : BlockState :=
  let joined : Text :=
    if folds && b.lead == ['\n'] && !b.blankLead && !blank then
      (if b.trailing.isEmpty then [' '] else [])
    else b.lead
  { lead := [], trailing := [], blankLead := blank,
    text := b.trailing ++ (joined ++ b.text) }

/-- The text of the scalar. -/
def finish (chomping : Chomping) (b : BlockState) : Text :=
  let tail :=
    match chomping with
    | .strip => []
    | .clip => b.lead
    | .keep => b.trailing ++ b.lead
  (tail ++ b.text).reverse

end BlockState

/-- Reads the lines of a block scalar whose lines start at column `indent`.  `inside` says
that the line has shown content.  A tab must not stand for indentation. -/
def readLines (folds : Bool) (chomping : Chomping) (indent line column : Nat)
    (inside : Bool) (b : BlockState) : Text → Option (Text × Cursor)
  | [] => some (b.finish chomping, ⟨line, column, []⟩)
  | c :: s =>
    if inside then
      if isBreak c then
        readLines folds chomping indent (line + 1) 0 false { b with lead := [c] } s
      else
        readLines folds chomping indent line (column + 1) true { b with text := c :: b.text } s
    else if column < indent && c == ' ' then
      readLines folds chomping indent line (column + 1) false b s
    else if column < indent && c == '\t' then none
    else if isBreak c then
      readLines folds chomping indent (line + 1) 0 false
        { b with trailing := c :: b.trailing } s
    else if column < indent then some (b.finish chomping, ⟨line, column, c :: s⟩)
    else
      let b := b.startLine folds (isInline c)
      readLines folds chomping indent line (column + 1) true { b with text := c :: b.text } s

/-- Reads a block scalar after its mark.  `outer` is the least column of its lines: one more
than that of its surroundings. -/
def readBlockScalar (folds : Bool) (outer line : Nat) (s : Text) :
    Option (Text × Cursor) := do
  let (header, s) ← readHeader s
  let s ← skipLine s
  let indent ←
    match header.deeper with
    | some deeper => pure (outer - 1 + deeper)
    | none => (detectIndent 0 0 s).map fun reached => max (max reached outer) 1
  readLines folds header.chomping indent (line + 1) 0 false {} s

end Swatch.Yaml
