/-
Module: Swatch.Proofs.Rows
Purpose: A printed style sheet row by row: what stands on each row, and how deep.
Main exports:
  Row, Row.text, Node.rows, rowsFrom, rows, print_eq_rows, declarations_rows
-/
import Swatch.Sheet.Print

namespace Swatch

/-!
### Rows

Each row holds one thing, so what a sheet is printed as can be told from its rows without looking at
their texts.
-/

/-- What stands on a row of a printed sheet, and how many blocks are open around it. -/
inductive Row where
  | empty
  | opening (depth : Nat) (head : Text)
  | closing (depth : Nat)
  | statement (depth : Nat) (head : Text)
  | declaration (depth : Nat) (declaration : Declaration)
  | comment (depth : Nat) (text : Text)
deriving DecidableEq, Repr

namespace Row

/-- The text of a row with the end of its line. -/
def text (s : FormatSettings) : Row → Text
  | .empty => ['\n']
  | .opening depth head => s.margin depth ++ head ++ " \x7b\n".toList
  | .closing depth => s.margin depth ++ "\x7d\n".toList
  | .statement depth head => s.margin depth ++ head ++ ";\n".toList
  | .declaration depth d => s.margin depth ++ d.text
  | .comment depth text => s.margin depth ++ "/* ".toList ++ text ++ " */\n".toList

/-- The declaration on a row. -/
def declaration? : Row → Option Declaration
  | .declaration _ d => some d
  | _ => none

/-- Whether something stands on a row. -/
def isFilled : Row → Bool
  | .empty => false
  | _ => true

/-- Whether a comment stands on a row. -/
def isComment : Row → Bool
  | .comment _ _ => true
  | _ => false

end Row

/-- The rows of a block around what is inside it. -/
def blockRows (depth : Nat) (head : Text) (inside : List Row) : List Row :=
  .opening depth head :: (inside ++ [.closing depth])

/-- The empty row before an item, if there is one. -/
def FormatSettings.gapRows (s : FormatSettings) (previous : Option Node) (n : Node) : List Row :=
  match previous with
  | some previous => if s.blankLines && separates previous n then [.empty] else []
  | none => []

mutual

/-- The rows of an item at some level of nesting. -/
def Node.rows (s : FormatSettings) (depth : Nat) : Node → List Row
  | .rule selector children =>
    blockRows depth selector (rowsFrom s (depth + 1) none children)
  | .atBlock name params children =>
    blockRows depth (atRuleHead name params) (rowsFrom s (depth + 1) none children)
  | .atStatement name params => [.statement depth (atRuleHead name params)]
  | .declaration d => [.declaration depth d]
  | .comment text => [.comment depth text]

/-- The rows of the items of a list behind `previous`, the last one that has rows before them. -/
def rowsFrom (s : FormatSettings) (depth : Nat) (previous : Option Node) : List Node → List Row
  | [] => []
  | n :: rest =>
    if s.stripComments && n.isComment then rowsFrom s depth previous rest
    else s.gapRows previous n ++ n.rows s depth ++ rowsFrom s depth (some n) rest

end

/-- The rows of a style sheet. -/
def rows (s : FormatSettings) (nodes : List Node) : List Row := rowsFrom s 0 none nodes

section Rows

variable {s : FormatSettings}

/-!
### The text of the rows
-/

theorem gap_eq_rows (previous : Option Node) (n : Node) :
    s.gap previous n = (s.gapRows previous n).flatMap (Row.text s) := by
  cases previous with
  | none => rfl
  | some previous =>
      rw [FormatSettings.gap, FormatSettings.gapRows]
      split
      next => rfl
      next => rfl

theorem text_blockRows (depth : Nat) (head : Text) (inside : List Row) :
    (blockRows depth head inside).flatMap (Row.text s) =
      s.margin depth ++ head ++ " \x7b\n".toList ++ inside.flatMap (Row.text s) ++
        s.margin depth ++ "\x7d\n".toList := by
  simp [blockRows, Row.text]

mutual

theorem printItem_eq_rows (depth : Nat) (n : Node) :
    printItem s depth n = (n.rows s depth).flatMap (Row.text s) := by
  cases n with
  | rule selector children =>
      rw [printItem, Node.rows, text_blockRows, printItems_eq_rows (depth + 1) none children]
  | atBlock name params children =>
      rw [printItem, Node.rows, text_blockRows, printItems_eq_rows (depth + 1) none children]
  | atStatement name params => exact (List.append_nil _).symm
  | declaration d => exact (List.append_nil _).symm
  | comment text => exact (List.append_nil _).symm

/-- Items are printed row by row. -/
theorem printItems_eq_rows (depth : Nat) (previous : Option Node) (nodes : List Node) :
    printItems s depth previous nodes =
      (rowsFrom s depth previous nodes).flatMap (Row.text s) := by
  cases nodes with
  | nil => rfl
  | cons n rest =>
      rw [printItems, rowsFrom]
      split
      next => exact printItems_eq_rows depth previous rest
      next =>
        rw [List.flatMap_append, List.flatMap_append, gap_eq_rows previous n,
          printItem_eq_rows depth n, printItems_eq_rows depth (some n) rest]

end

/-- A style sheet is printed row by row. -/
theorem print_eq_rows (s : FormatSettings) (nodes : List Node) :
    print s nodes = (rows s nodes).flatMap (Row.text s) :=
  printItems_eq_rows 0 none nodes

/-!
### Declarations on rows
-/

theorem declarations_blockRows (depth : Nat) (head : Text) (inside : List Row) :
    (blockRows depth head inside).filterMap Row.declaration? =
      inside.filterMap Row.declaration? := by
  rw [blockRows, List.filterMap_cons_none rfl, List.filterMap_append]
  exact List.append_nil _

/-- Nothing stands on a row before an item. -/
theorem eq_empty_of_mem_gapRows {previous : Option Node} {n : Node} {row : Row}
    (member : row ∈ s.gapRows previous n) : row = .empty := by
  cases previous with
  | none => cases member
  | some previous =>
      rw [FormatSettings.gapRows] at member
      split at member
      next => exact List.mem_singleton.mp member
      next => cases member

theorem declarations_gapRows (previous : Option Node) (n : Node) :
    (s.gapRows previous n).filterMap Row.declaration? = [] := by
  rw [List.filterMap_eq_nil_iff]
  intro row member
  rw [eq_empty_of_mem_gapRows member]
  rfl

mutual

theorem declarations_item_rows (depth : Nat) (n : Node) :
    (n.rows s depth).filterMap Row.declaration? = n.declarations := by
  cases n with
  | rule selector children =>
      rw [Node.rows, declarations_blockRows]
      exact declarations_rowsFrom (depth + 1) none children
  | atBlock name params children =>
      rw [Node.rows, declarations_blockRows]
      exact declarations_rowsFrom (depth + 1) none children
  | atStatement name params => rfl
  | declaration d => rfl
  | comment text => rfl

/-- The declarations of items stand on their rows one by one, in their order. -/
theorem declarations_rowsFrom (depth : Nat) (previous : Option Node) (nodes : List Node) :
    (rowsFrom s depth previous nodes).filterMap Row.declaration? =
      Node.declarationsAll nodes := by
  cases nodes with
  | nil => rfl
  | cons n rest =>
      rw [rowsFrom, Node.declarationsAll]
      split
      next skipped =>
        have none : n.declarations = [] := by
          cases n with
          | comment text => rfl
          | _ => simp [Node.isComment] at skipped
        rw [none, List.nil_append]
        exact declarations_rowsFrom depth previous rest
      next =>
        rw [List.filterMap_append, List.filterMap_append, declarations_gapRows,
          declarations_item_rows depth n, declarations_rowsFrom depth (some n) rest,
          List.nil_append]

end

/-- The declarations of a style sheet stand on its rows one by one, in the order of the walk. -/
theorem declarations_rows (s : FormatSettings) (nodes : List Node) :
    (rows s nodes).filterMap Row.declaration? = Node.declarationsAll nodes :=
  declarations_rowsFrom 0 none nodes

end Rows

end Swatch
