/-
Module: Swatch.Value
Purpose: The normal spelling of values, selectors and parameters.
Main exports:
  Tree.write, writeTrees, normalizeValue
-/
import Swatch.Sheet.Error
import Swatch.Token.Print
import Swatch.Tree

namespace Swatch

/-!
### Writing trees

A run of white space and comments becomes at most one space, written before the next token.
Space at either end of a value is dropped.  With comma spacing on, the same holds at either
end of a block, and a comma swallows the space before it and is always followed by one.
With comma spacing off, space at the ends of a block is content and stays one space.
-/

/-- Whether the tree is a comma. -/
def Tree.isComma (t : Tree) : Bool := t.token == .comma

mutual

/-- The spelling of one tree that is not blank.  A broken string or address has none. -/
def Tree.write (commas : Bool) : Tree → Except SheetError Text
  | .leaf lexeme =>
    match lexeme.token with
    | .badString _ => .error (.unterminatedString lexeme.start)
    | .badUrl _ => .error (.invalidUrl lexeme.start)
    | token => .ok token.text
  | .block bracket opener children _ _ => do
    let inner ← writeTrees commas true false false children
    return opener.token.text ++ inner ++ [bracket.closeChar]

/-- The spelling of neighbouring trees.  `gap` says that a space is due before the next
token, and `begun` that a token was written. -/
def writeTrees (commas nested gap begun : Bool) : List Tree → Except SheetError Text
  | [] => .ok (if gap && nested && !commas then [' '] else [])
  | t :: rest =>
    if t.isBlank then
      writeTrees commas nested (gap || begun || (nested && !commas)) begun rest
    else if commas && t.isComma then do
      let after ← writeTrees commas nested true true rest
      return ',' :: after
    else do
      let head ← t.write commas
      let after ← writeTrees commas nested false true rest
      return (if gap then [' '] else []) ++ head ++ after

end

/-- The spelling of trees that stand on their own. -/
def writeValue (commas : Bool) (ts : List Tree) : Except SheetError Text :=
  writeTrees commas false false false ts

/-- The normal spelling of a value. -/
def normalizeValue (commas : Bool) (value : Text) : Except SheetError Text :=
  writeValue commas (trees value)

end Swatch
