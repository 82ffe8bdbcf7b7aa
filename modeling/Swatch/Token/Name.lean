/-
Module: Swatch.Token.Name
Purpose: Names, escapes, strings and unquoted addresses at the start of a text.
Main exports:
  startsName, readEscape, readName, readString, readUrl, readComment
-/
import Swatch.Token.Basic

namespace Swatch

/-!
### Names

Every reader returns what it read and how many characters it took.  What follows is then a
suffix of the text by construction, so a scan over the whole text neither invents nor
repeats anything.
-/

/-- Whether a line ends right here. -/
def startsNewline : Text → Bool
  | c :: _ => isNewline c
  | [] => false

/-- A character that starts a name by itself: an ASCII letter, the underscore, NUL, or any
character beyond ASCII. -/
def isNameStart (c : Char) : Bool :=
  c.isAlpha || c == '_' || c == '\x00' || 0x80 ≤ c.toNat

/-- A character that stands in a name by itself. -/
def isNameChar (c : Char) : Bool :=
  isNameStart c || c.isDigit || c == '-'

/-- Whether a name starts here.  After a hyphen any backslash counts; elsewhere one before
the end of a line does not. -/
def startsName : Text → Bool
  | '-' :: c :: _ => isNameStart c || c == '-' || c == '\\'
  | '\\' :: s => !startsNewline s
  | c :: _ => isNameStart c
  | [] => false

/-- NUL cannot be kept; any other character is read as itself. -/
def kept (c : Char) : Char := if c = '\x00' then replacement else c

/-- Reads at most `most` hexadecimal digits and continues the number `sofar` with them. -/
def readHex (sofar : Nat) : (most : Nat) → Text → Nat × Nat
  | most + 1, c :: s =>
    if isHexDigit c then
      let (code, taken) := readHex (16 * sofar + hexValue c) most s
      (code, taken + 1)
    else (sofar, 0)
  | _, _ => (sofar, 0)

/-- The length of the end of a line at the start of the text: a carriage return and the
line feed after it are one. -/
def newlineLength : Text → Nat
  | '\r' :: '\n' :: _ => 2
  | c :: _ => if isNewline c then 1 else 0
  | [] => 0

/-- The length of one white space character at the start of the text. -/
def spaceLength : Text → Nat
  | c :: s => if isNewline c then newlineLength (c :: s) else if isSpace c then 1 else 0
  | [] => 0

/-- The character with a code point, or the replacement for zero, for a surrogate and for
a number beyond all code points. -/
def charOfCode (n : Nat) : Char :=
  if n ≠ 0 ∧ n.isValidChar then Char.ofNat n else replacement

/-- Reads what follows a backslash: one to six hexadecimal digits and a space after them
name a code point, anything else stands for itself.  At the end of the text the replacement
is read. -/
def readEscape : Text → Char × Nat
  | [] => (replacement, 0)
  | c :: s =>
    if isHexDigit c then
      let (code, taken) := readHex 0 6 (c :: s)
      (charOfCode code, taken + spaceLength ((c :: s).drop taken))
    else (kept c, 1)

/-- Reads the longest run of name characters and escapes, unescaped. -/
def readName : Text → Text × Nat
  | [] => ([], 0)
  | c :: s =>
    if c = '\\' then
      if startsNewline s then ([], 0)
      else
        let (d, escape) := readEscape s
        let (name, taken) := readName (s.drop escape)
        (d :: name, 1 + escape + taken)
    else if isNameChar c then
      let (name, taken) := readName s
      (kept c :: name, 1 + taken)
    else ([], 0)
termination_by s => s.length
decreasing_by
  all_goals simp only [List.length_drop, List.length_cons]
  all_goals omega

/-!
### Strings
-/

/-- Reads a string up to its closing mark, which is taken, or to the end of the text.  The
flag says that the end of a line came first; it is not taken.  A backslash hides the end of
a line, and at the end of the text it adds nothing. -/
def readString (mark : Char) : Text → (Text × Bool) × Nat
  | [] => (([], false), 0)
  | c :: s =>
    if c = mark then (([], false), 1)
    else if isNewline c then (([], true), 0)
    else if c = '\\' then
      if s.isEmpty then (([], false), 1)
      else if startsNewline s then
        let hidden := newlineLength s
        let (value, taken) := readString mark (s.drop hidden)
        (value, 1 + hidden + taken)
      else
        let (d, escape) := readEscape s
        let ((value, broken), taken) := readString mark (s.drop escape)
        ((d :: value, broken), 1 + escape + taken)
    else
      let ((value, broken), taken) := readString mark s
      ((kept c :: value, broken), 1 + taken)
termination_by s => s.length
decreasing_by
  all_goals simp only [List.length_drop, List.length_cons]
  all_goals omega

/-!
### Unquoted addresses
-/

/-- A character that an unquoted address cannot hold as it is: a quote, an opening bracket
or a control character. -/
def isUrlBreaker (c : Char) : Bool :=
  let n := c.toNat
  c == '"' || c == '\'' || c == '(' || (1 ≤ n && n ≤ 8) || n == 0x0b ||
    (0x0e ≤ n && n ≤ 0x1f) || n == 0x7f

/-- The length of a malformed address up to its closing bracket.  A backslash hides a
closing bracket or a backslash. -/
def skipUrl : Text → Nat
  | [] => 0
  | '\\' :: ')' :: s => 2 + skipUrl s
  | '\\' :: '\\' :: s => 2 + skipUrl s
  | c :: s => if c = ')' then 0 else 1 + skipUrl s

/-- Reads the contents of an unquoted address.  They are missing where the address is
malformed; then its closing bracket is not taken, otherwise it is. -/
def readUrlBody : Text → Option Text × Nat
  | [] => (some [], 0)
  | c :: s =>
    if c = ')' then (some [], 1)
    else if isSpace c then
      let spaces := 1 + (s.takeWhile isSpace).length
      match s.dropWhile isSpace with
      | [] => (some [], spaces)
      | d :: rest => if d = ')' then (some [], spaces + 1) else (none, spaces + 1 + skipUrl rest)
    else if isUrlBreaker c then (none, 1 + skipUrl s)
    else if c = '\\' then
      if startsNewline s then (none, 1 + skipUrl s)
      else
        let (d, escape) := readEscape s
        let (value, taken) := readUrlBody (s.drop escape)
        (value.map (d :: ·), 1 + escape + taken)
    else
      let (value, taken) := readUrlBody s
      (value.map (kept c :: ·), 1 + taken)
termination_by s => s.length
decreasing_by
  all_goals simp only [List.length_drop, List.length_cons]
  all_goals omega

/-- Reads an unquoted address after its opening bracket.  Nothing is read where a quote
comes first: then the address is the quoted argument of an ordinary function. -/
def readUrl (s : Text) : Option (Token × Nat) :=
  let spaces := (s.takeWhile isSpace).length
  let start := s.dropWhile isSpace
  if start.head? = some '"' ∨ start.head? = some '\'' then none
  else
    match readUrlBody start with
    | (some value, taken) => some (.url value, spaces + taken)
    | (none, taken) => some (.badUrl (start.take taken), spaces + taken + 1)

/-!
### Comments
-/

/-- Reads a comment after its opening mark, up to its closing mark, which is taken, or the
end of the text. -/
def readComment : Text → Text × Nat
  | [] => ([], 0)
  | '*' :: '/' :: _ => ([], 2)
  | c :: s =>
    let (text, taken) := readComment s
    (c :: text, 1 + taken)

end Swatch
