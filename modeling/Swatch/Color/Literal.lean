/-
Module: Swatch.Color.Literal
Purpose: Finding colour literals inside values.
Main exports:
  hexLiteral?, rgbLiteral?, firstMatch, extractLiterals, literals
-/
import Swatch.Sheet.Basic

namespace Swatch

/-!
### Literals at the start of a text
-/

/-- A character that continues a word of the ASCII range. -/
def isWordChar (c : Char) : Bool := c.isAlphanum || c == '_'

/-- A hash with exactly three or six hexadecimal digits, after which the word ends. -/
def hexLiteral? : Text → Option Text
  | '#' :: s =>
    let digits := s.takeWhile isHexDigit
    let ends := !(s.dropWhile isHexDigit).head?.any isWordChar
    if (digits.length = 3 ∨ digits.length = 6) ∧ ends then some ('#' :: digits) else none
  | _ => none

/-- The text without blanks at its start, if `c` comes next; then without `c` too. -/
def afterBlanks? (c : Char) (s : Text) : Option Text :=
  strip? [c] (trimStart s)

/-- A run of digits after blanks. -/
def digitsAfterBlanks? (s : Text) : Option (Text × Text) :=
  let s := trimStart s
  let digits := s.takeWhile Char.isDigit
  if digits.isEmpty then none else some (digits, s.dropWhile Char.isDigit)

/-- The respelling of an `rgb()` literal. -/
def rgbText (red green blue : Text) : Text :=
  "rgb(".toList ++ red ++ ", ".toList ++ green ++ ", ".toList ++ blue ++ [')']

/-- An `rgb()` with three runs of digits and blanks anywhere between its parts, respelled
with one space after each comma. -/
def rgbLiteral? (s : Text) : Option Text := do
  let s ← strip? "rgb(".toList s
  let (red, s) ← digitsAfterBlanks? s
  let s ← afterBlanks? ',' s
  let (green, s) ← digitsAfterBlanks? s
  let s ← afterBlanks? ',' s
  let (blue, s) ← digitsAfterBlanks? s
  let _ ← afterBlanks? ')' s
  return rgbText red green blue

/-!
### Literals of a value
-/

/-- What `find` finds at the leftmost place where it finds something. -/
def firstMatch {α : Type} (find : Text → Option α) : Text → Option α
  | [] => find []
  | c :: s => (find (c :: s)).or (firstMatch find s)

/-- The first hexadecimal and the first `rgb()` literal of a value. -/
def extractLiterals (value : Text) : Option Text × Option Text :=
  (firstMatch hexLiteral? value, firstMatch rgbLiteral? value)

/-- The literals of a value in the order in which they count. -/
def valueLiterals (value : Text) : List Text :=
  let (hex, rgb) := extractLiterals value
  hex.toList ++ rgb.toList

/-- The literals of all declarations in document order, each at its first place only. -/
def literals (nodes : List Node) : List Text :=
  ((Node.declarationsAll nodes).flatMap fun d => valueLiterals d.value).eraseDups

end Swatch
