/-
Module: Swatch.Token.Scan
Purpose: Cutting a source text into lexemes.
Main exports:
  scan, Lexeme, lexemesFrom, lexemes
-/
import Swatch.Token.Name

namespace Swatch

/-!
### Numbers and words

Like all readers these return a token and how many characters it took.
-/

/-- Reads a number and what belongs to it: a percent sign or a unit. -/
def readNumeric (s : Text) : Token × Nat :=
  let written := readWritten s
  let length := written.text.length
  let rest := s.drop length
  if rest.head? = some '%' then (.percentage written.percentage, length + 1)
  else if startsName rest then
    let (unit, taken) := readName rest
    (.dimension written.number unit, length + taken)
  else (.number written.number, length)

/-- Reads a name and what belongs to it: an opening bracket makes it a function, and the
function named `url` may be a whole unquoted address. -/
def readWord (s : Text) : Token × Nat :=
  let (name, taken) := readName s
  match s.drop taken with
  | '(' :: rest =>
    match if lowercase name = "url".toList then readUrl rest else none with
    | some (token, more) => (token, taken + 1 + more)
    | none => (.function name, taken + 1)
  | _ => (.ident name, taken)

/-!
### Punctuation
-/

/-- The comparison that starts with `c`, when an equals sign follows. -/
def matcher? (c : Char) : Option Matcher :=
  match c with
  | '~' => some .includes
  | '|' => some .dash
  | '^' => some .start
  | '$' => some .finish
  | '*' => some .substring
  | _ => none

/-- Reads a token whose first character has no class of its own.  The count is the one of
the characters after it. -/
def readPunctuation (c : Char) (s : Text) : Token × Nat :=
  match c, s with
  | '(', _ => (.opening .round, 0)
  | '[', _ => (.opening .square, 0)
  | '\x7b', _ => (.opening .curly, 0)
  | ')', _ => (.closing .round, 0)
  | ']', _ => (.closing .square, 0)
  | '\x7d', _ => (.closing .curly, 0)
  | ':', _ => (.colon, 0)
  | ';', _ => (.semicolon, 0)
  | ',', _ => (.comma, 0)
  | '/', '*' :: s =>
    let (text, taken) := readComment s
    (.comment text, 1 + taken)
  | '-', '-' :: '>' :: _ => (.commentClose, 2)
  | '<', '!' :: '-' :: '-' :: _ => (.commentOpen, 3)
  | c, '=' :: _ =>
    match matcher? c with
    | some kind => (.matcher kind, 1)
    | none => (.delim c, 0)
  | c, _ => (.delim c, 0)

/-- Whether `c` and the text after it start a word: a name that is not part of a mark. -/
def startsWord (c : Char) (s : Text) : Bool :=
  if c = '-' then (strip? "->".toList s).isNone && startsName (c :: s)
  else isNameStart c || (c == '\\' && !startsNewline s)

/-- Reads the token that starts with `c` and goes on in `s`.  The count is the one of the
characters it takes from `s`. -/
def scan (c : Char) (s : Text) : Token × Nat :=
  if isSpace c then (.whitespace, (s.takeWhile isSpace).length)
  else if c = '"' ∨ c = '\'' then
    let ((value, broken), taken) := readString c s
    (if broken then .badString value else .string value, taken)
  else if c = '#' then
    let (name, taken) := readName s
    if startsName s then (.idHash name, taken)
    else if startsWithDigit s || s.head? == some '-' then (.hash name, taken)
    else (.delim c, 0)
  else if c = '@' then
    if startsName s then
      let (name, taken) := readName s
      (.atKeyword name, taken)
    else (.delim c, 0)
  else if startsNumber (c :: s) then
    let (token, taken) := readNumeric (c :: s)
    (token, taken - 1)
  else if startsWord c s then
    let (token, taken) := readWord (c :: s)
    (token, taken - 1)
  else readPunctuation c s

/-!
### Lexemes
-/

/-- A token with its source text and the place where it starts. -/
structure Lexeme where
  token : Token
  text : Text
  start : Position
deriving DecidableEq, Repr, Inhabited

/-- The lexemes of a text that starts at `here`. -/
def lexemesFrom (here : Position) : Text → List Lexeme
  | [] => []
  | c :: s =>
    let (token, taken) := scan c s
    let text := c :: s.take taken
    ⟨token, text, here⟩ :: lexemesFrom (here.advance text) (s.drop taken)
termination_by s => s.length
decreasing_by
  simp only [List.length_drop, List.length_cons]
  omega

/-- The lexemes of a source text. -/
def lexemes (s : Text) : List Lexeme := lexemesFrom {} s

end Swatch
