/-
Module: Swatch.Yaml.Basic
Purpose: YAML documents, and places in their text.
Main exports:
  Yaml, Yaml.Document, Yaml.Document.resolve, Yaml.Cursor, Yaml.Gap
-/
import Swatch.Text.Basic

namespace Swatch

/-- How a scalar is written. -/
inductive Yaml.Style where
  | plain
  | literal
  /-- In quotes of either kind. -/
  | quoted
  | folded
deriving DecidableEq, Repr, Inhabited

/-- A node of a YAML document.  A plain scalar may stand for a value that is no text.  The tags
of sequences and mappings tell nothing and are not kept. -/
inductive Yaml where
  | scalar (style : Yaml.Style) (tag : Option Text) (text : Text)
  | sequence (items : List Yaml)
  | mapping (entries : List (Yaml × Yaml))
  /-- A node with a number by which others refer to it. -/
  | anchored (number : Nat) (node : Yaml)
  /-- What refers to the node with that number. -/
  | reference (number : Nat)
deriving Repr, Inhabited

namespace Yaml

/-- The node where nothing is written. -/
def empty : Yaml := .scalar .plain none []

mutual

/-- The nodes with a number inside a node, in the order in which they start. -/
def anchors : Yaml → List (Nat × Yaml)
  | .scalar _ _ _ => []
  | .sequence items => anchorsOfItems items
  | .mapping entries => anchorsOfEntries entries
  | .anchored number node => (number, node) :: node.anchors
  | .reference _ => []

/-- The nodes with a number inside the items of a sequence. -/
def anchorsOfItems : List Yaml → List (Nat × Yaml)
  | [] => []
  | item :: items => item.anchors ++ anchorsOfItems items

/-- The nodes with a number inside the entries of a mapping. -/
def anchorsOfEntries : List (Yaml × Yaml) → List (Nat × Yaml)
  | [] => []
  | (key, value) :: entries => key.anchors ++ (value.anchors ++ anchorsOfEntries entries)

end

/-- A document: its outermost node, and the nodes with a number. -/
structure Document where
  root : Yaml
  anchors : List (Nat × Yaml)
deriving Repr, Inhabited

/-- The document with an outermost node. -/
def document (root : Yaml) : Document := ⟨root, root.anchors⟩

/-- What a node stands for.  Of the nodes with one number the last one is referred to, also from
before it. -/
def Document.resolve (d : Document) : Yaml → Yaml
  | .anchored _ node => node
  | .reference number =>
    match d.anchors.reverse.find? (·.1 == number) with
    | some (_, node) => node
    | none => .empty
  | node => node

/-- A place in the text and the text from there on.  Both counts start at zero. -/
structure Cursor where
  line : Nat
  column : Nat
  rest : Text
deriving DecidableEq, Repr, Inhabited

/-- A blank inside a line. -/
def isInline (c : Char) : Bool := c == ' ' || c == '\t'

/-- A character that ends a line.  The line and the paragraph separator do so too, and unlike
line feeds they are kept as they are. -/
def isBreak (c : Char) : Bool := c == '\n' || c == '\u2028' || c == '\u2029'

/-- Whether a blank, the end of a line or the end of the text comes next. -/
def startsBlank : Text → Bool
  | [] => true
  | c :: _ => isInline c || isBreak c

/-- Whether the line starts with three times `mark` and a blank: a border of a document. -/
def isBorder (mark : Char) : Text → Bool
  | a :: b :: c :: rest => a == mark && b == mark && c == mark && startsBlank rest
  | _ => false

/-- Whether a border of a document stands here. -/
def atBorder (column : Nat) (s : Text) : Bool :=
  column == 0 && (isBorder '-' s || isBorder '.' s)

/-- What stands between two parts of a scalar that is written in pieces. -/
inductive Gap where
  | none
  /-- Blanks inside a line, latest first. -/
  | blanks (run : Text)
  /-- Ends of lines: the first one, unless a backslash hides it, and those of empty lines
  after it, latest first. -/
  | lines (first : Option Char) (empty : Text)
deriving DecidableEq, Repr, Inhabited

namespace Gap

/-- The text that the gap contributes.  A line feed becomes a space, or nothing before empty
lines. -/
def text : Gap → Text
  | .none => []
  | .blanks run => run.reverse
  | .lines first empty =>
    if first = some '\n' then (if empty.isEmpty then [' '] else empty.reverse)
    else first.toList ++ empty.reverse

/-- One more blank: it counts only while the line goes on. -/
def blank (c : Char) : Gap → Gap
  | .none => .blanks [c]
  | .blanks run => .blanks (c :: run)
  | .lines first empty => .lines first empty

/-- One more end of a line: blanks before it do not count. -/
def newline (c : Char) : Gap → Gap
  | .lines first empty => .lines first (c :: empty)
  | _ => .lines (some c) []

/-- Whether the gap spans lines. -/
def isLines : Gap → Bool
  | .lines _ _ => true
  | _ => false

end Gap

end Yaml

end Swatch
