/-
Module: Swatch.Tree
Purpose: Lexemes nested by their brackets.
Main exports:
  Tree, Tree.start, Tree.text, Nesting, nest, trees
-/
import Swatch.Token.Scan

namespace Swatch

/-- A lexeme that stands by itself, or a pair of brackets with what is between them.  A
block ends at the bracket that matches its own; brackets of another kind inside it are
leaves.  The end of the text closes all open blocks.  `stop` is where the contents end. -/
inductive Tree where
  | leaf (lexeme : Lexeme)
  | block (bracket : Bracket) (opener : Lexeme) (children : List Tree) (stop : Position)
      (closed : Bool)
deriving Repr, Inhabited

namespace Tree

/-- The first lexeme. -/
def first : Tree → Lexeme
  | .leaf lexeme => lexeme
  | .block _ opener _ _ _ => opener

/-- Where the tree starts. -/
def start (t : Tree) : Position := t.first.start

/-- The token that the tree starts with. -/
def token (t : Tree) : Token := t.first.token

/-- Whether the tree is white space or a comment. -/
def isBlank (t : Tree) : Bool := t.token.isBlank

mutual

/-- The source text of a tree. -/
def text : Tree → Text
  | .leaf lexeme => lexeme.text
  | .block bracket opener children _ closed =>
    opener.text ++ textAll children ++ (if closed then [bracket.closeChar] else [])

/-- The source text of neighbouring trees. -/
def textAll : List Tree → Text
  | [] => []
  | t :: rest => t.text ++ textAll rest

end

/-- The trees without leading white space and comments. -/
def dropBlank (ts : List Tree) : List Tree := ts.dropWhile isBlank

/-- Where the trees start, or `stop` if there are none. -/
def startOf (stop : Position) : List Tree → Position
  | [] => stop
  | t :: _ => t.start

end Tree

/-!
### Nesting
-/

/-- A block that is still open, with the trees read before it at its own level, latest
first. -/
structure OpenBlock where
  bracket : Bracket
  opener : Lexeme
  before : List Tree
deriving Repr, Inhabited

/-- The open blocks, innermost first, and the trees read in the innermost one, latest
first. -/
structure Nesting where
  blocks : List OpenBlock := []
  done : List Tree := []
deriving Repr, Inhabited

namespace Nesting

/-- The innermost block is complete and becomes a tree of the block around it. -/
def close (stop : Position) (closed : Bool) (inner : OpenBlock) (outer : List OpenBlock)
    (done : List Tree) : Nesting :=
  ⟨outer, .block inner.bracket inner.opener done.reverse stop closed :: inner.before⟩

/-- Reads one more lexeme. -/
def push (n : Nesting) (lexeme : Lexeme) : Nesting :=
  match lexeme.token.opens? with
  | some bracket => ⟨⟨bracket, lexeme, n.done⟩ :: n.blocks, []⟩
  | none =>
    match n.blocks with
    | [] => ⟨[], .leaf lexeme :: n.done⟩
    | inner :: outer =>
      if lexeme.token = .closing inner.bracket then
        close lexeme.start true inner outer n.done
      else ⟨inner :: outer, .leaf lexeme :: n.done⟩

/-- Closes all open blocks at `stop`. -/
def finish (stop : Position) : (blocks : List OpenBlock) → (done : List Tree) → List Tree
  | [], done => done.reverse
  | inner :: outer, done =>
    finish stop outer
      (.block inner.bracket inner.opener done.reverse stop false :: inner.before)

end Nesting

/-- The trees that lexemes form when the text ends at `stop`. -/
def nest (stop : Position) (lexemes : List Lexeme) : List Tree :=
  let nesting := lexemes.foldl Nesting.push {}
  Nesting.finish stop nesting.blocks nesting.done

/-- The trees of a source text. -/
def trees (source : Text) : List Tree :=
  nest (Position.advance {} source) (lexemes source)

end Swatch
