/-
Module: Swatch.Proofs.Stripping
Purpose: Leaving comments out when printing is printing the items that are left.
Main exports:
  Node.withoutComments, withoutComments, headsAll_withoutComments, visible, rows_withoutComments,
  print_visible, print_strips_comments
-/
import Swatch.Proofs.Outline
import Swatch.Proofs.Rows

namespace Swatch

/-!
### Sheets without comments
-/

mutual

/-- The item without the comments inside it. -/
def Node.withoutComments : Node → Node
  | .rule selector children => .rule selector (withoutComments children)
  | .atBlock name params children => .atBlock name params (withoutComments children)
  | .atStatement name params => .atStatement name params
  | .declaration d => .declaration d
  | .comment text => .comment text

/-- The items that are no comments, without the comments inside them. -/
def withoutComments : List Node → List Node
  | [] => []
  | n :: rest =>
    if n.isComment then withoutComments rest else n.withoutComments :: withoutComments rest

end

/-- The items that the settings let be printed. -/
def visible (s : FormatSettings) (nodes : List Node) : List Node :=
  if s.stripComments then withoutComments nodes else nodes

/-- The settings with comments kept. -/
def FormatSettings.keeping (s : FormatSettings) : FormatSettings :=
  { s with stripComments := false }

/-!
### What is left
-/

@[simp] theorem isComment_withoutComments (n : Node) :
    n.withoutComments.isComment = n.isComment := by
  cases n <;> rfl

@[simp] theorem isBlock_withoutComments (n : Node) :
    n.withoutComments.isBlock = n.isBlock := by
  cases n <;> rfl

mutual

theorem heads_withoutComments (n : Node) (dark : n.isComment = false) :
    n.withoutComments.heads = n.heads.filter (!·.isComment) := by
  cases n with
  | rule selector children =>
      rw [Node.withoutComments, Node.heads, Node.heads, headsAll_withoutComments children]
      rfl
  | atBlock name params children =>
      rw [Node.withoutComments, Node.heads, Node.heads, headsAll_withoutComments children]
      rfl
  | atStatement name params => rfl
  | declaration d => rfl
  | comment text => cases dark

/-- Without comments all other items are left. -/
theorem headsAll_withoutComments (nodes : List Node) :
    headsAll (withoutComments nodes) = (headsAll nodes).filter (!·.isComment) := by
  cases nodes with
  | nil => rfl
  | cons n rest =>
      rw [withoutComments, headsAll, List.filter_append]
      split
      next comment =>
        rw [headsAll_withoutComments rest]
        cases n with
        | comment text => rfl
        | _ => cases comment
      next comment =>
        rw [headsAll, heads_withoutComments n (Bool.eq_false_iff.mpr comment),
          headsAll_withoutComments rest]

end

section Strip

variable {s : FormatSettings}

/-!
### The rows of what is left

The rows of an item depend on the item before it, of which only the kind counts.  A comment that is
left out is no item before another one.
-/

/-- The empty rows depend on the kinds of the neighbours alone. -/
theorem gapRows_withoutComments (previous : Option Node) (n : Node) :
    s.keeping.gapRows (previous.map Node.withoutComments) n.withoutComments =
      s.gapRows previous n := by
  cases previous with
  | none => rfl
  | some previous =>
      simp only [FormatSettings.gapRows, Option.map_some, separates, isBlock_withoutComments,
        isComment_withoutComments]
      rfl

mutual

theorem rows_item_withoutComments (strips : s.stripComments = true) (depth : Nat) (n : Node) :
    n.withoutComments.rows s.keeping depth = n.rows s depth := by
  cases n with
  | rule selector children =>
      exact congrArg (blockRows depth selector)
        (rowsFrom_withoutComments strips (depth + 1) none children)
  | atBlock name params children =>
      exact congrArg (blockRows depth (atRuleHead name params))
        (rowsFrom_withoutComments strips (depth + 1) none children)
  | atStatement name params => rfl
  | declaration d => rfl
  | comment text => rfl

theorem rowsFrom_withoutComments (strips : s.stripComments = true) (depth : Nat)
    (previous : Option Node) (nodes : List Node) :
    rowsFrom s.keeping depth (previous.map Node.withoutComments) (withoutComments nodes) =
      rowsFrom s depth previous nodes := by
  cases nodes with
  | nil => rfl
  | cons n rest =>
      rw [withoutComments, rowsFrom, strips, Bool.true_and]
      cases comment : n.isComment with
      | true =>
          simp only [if_true]
          exact rowsFrom_withoutComments strips depth previous rest
      | false =>
          have more := rowsFrom_withoutComments strips depth (some n) rest
          have head := rows_item_withoutComments strips depth n
          rw [Option.map_some] at more
          simp only [if_false, Bool.false_eq_true]
          rw [rowsFrom, gapRows_withoutComments, head, more]
          rfl

end

/-- The rows are those of the items that are left. -/
theorem rows_withoutComments (strips : s.stripComments = true) (nodes : List Node) :
    rows s.keeping (withoutComments nodes) = rows s nodes :=
  rowsFrom_withoutComments strips 0 none nodes

/-- The text of a row does not depend on whether comments are kept. -/
theorem text_keeping (s : FormatSettings) : Row.text s.keeping = Row.text s := by
  funext row
  cases row <;> rfl

/-- What is printed is what the settings let be printed. -/
theorem print_visible (s : FormatSettings) (nodes : List Node) :
    print s.keeping (visible s nodes) = print s nodes := by
  cases strips : s.stripComments with
  | true =>
      rw [visible, strips, if_pos rfl, print_eq_rows, print_eq_rows, text_keeping,
        rows_withoutComments strips]
  | false =>
      have same : s.keeping = s := by
        obtain ⟨version, indent, commas, lines, stripped, sorted⟩ := s
        cases strips
        rfl
      rw [visible, strips, same]
      rfl

/-!
### The rows of comments

The other way round, the rows of a sheet with its comments tell those that are left, but for the
empty ones: a comment that stands above a block keeps the empty row away from it.
-/

/-- The rows that are left of those of a sheet with its comments. -/
def Row.isLeft (row : Row) : Bool := row.isFilled && !row.isComment

theorem filter_gapRows {p : Row → Bool} (empty : p .empty = false) (previous : Option Node)
    (n : Node) : (s.gapRows previous n).filter p = [] := by
  rw [List.filter_eq_nil_iff]
  intro row member
  rw [eq_empty_of_mem_gapRows member, empty]
  exact Bool.false_ne_true

theorem filter_blockRows {p : Row → Bool} {depth : Nat} {head : Text}
    (opening : p (.opening depth head) = true) (closing : p (.closing depth) = true)
    (inside : List Row) :
    (blockRows depth head inside).filter p = blockRows depth head (inside.filter p) := by
  rw [blockRows, List.filter_cons_of_pos opening, List.filter_append,
    List.filter_cons_of_pos closing]
  rfl

mutual

theorem filled_item_rows (strips : s.stripComments = true) (depth : Nat) {n : Node}
    (dark : n.isComment = false) :
    (n.rows s depth).filter Row.isFilled = (n.rows s.keeping depth).filter Row.isLeft := by
  cases n with
  | rule selector children =>
      rw [Node.rows, Node.rows, filter_blockRows rfl rfl, filter_blockRows rfl rfl,
        filled_rowsFrom strips (depth + 1) none none children]
  | atBlock name params children =>
      rw [Node.rows, Node.rows, filter_blockRows rfl rfl, filter_blockRows rfl rfl,
        filled_rowsFrom strips (depth + 1) none none children]
  | atStatement name params => rfl
  | declaration d => rfl
  | comment text => cases dark

theorem filled_rowsFrom (strips : s.stripComments = true) (depth : Nat)
    (previous other : Option Node) (nodes : List Node) :
    (rowsFrom s depth previous nodes).filter Row.isFilled =
      (rowsFrom s.keeping depth other nodes).filter Row.isLeft := by
  cases nodes with
  | nil => rfl
  | cons n rest =>
      have keeps : s.keeping.stripComments = false := rfl
      rw [rowsFrom, rowsFrom, strips, keeps, Bool.true_and, Bool.false_and,
        if_neg Bool.false_ne_true, List.filter_append, List.filter_append, filter_gapRows rfl,
        List.nil_append]
      cases comment : n.isComment with
      | true =>
          have hidden : (n.rows s.keeping depth).filter Row.isLeft = [] := by
            cases n with
            | comment text => rfl
            | _ => cases comment
          rw [if_pos rfl, hidden, List.nil_append]
          exact filled_rowsFrom strips depth previous (some n) rest
      | false =>
          rw [if_neg Bool.false_ne_true, List.filter_append, List.filter_append,
            filter_gapRows rfl, List.nil_append, filled_item_rows strips depth comment,
            filled_rowsFrom strips depth (some n) (some n) rest]

end

/-!
### The result
-/

/-- Leaving comments out when printing is taking them out of the sheet first, at every level, and
printing what is left.  Row by row, what is left stands as deep as it does then and behind the same
empty rows.  Of the rows of the sheet with its comments, all others that hold anything are left as
they are. -/
theorem print_strips_comments (strips : s.stripComments = true) (nodes : List Node) :
    print s nodes = print s.keeping (withoutComments nodes) ∧
      headsAll (withoutComments nodes) = (headsAll nodes).filter (!·.isComment) ∧
      rows s nodes = rows s.keeping (withoutComments nodes) ∧
      (rows s nodes).filter Row.isFilled = (rows s.keeping nodes).filter Row.isLeft := by
  have shown : visible s nodes = withoutComments nodes := by rw [visible, strips, if_pos rfl]
  refine ⟨?_, headsAll_withoutComments nodes, (rows_withoutComments strips nodes).symm,
    filled_rowsFrom strips 0 none none nodes⟩
  rw [← print_visible, shown]

/-- A sheet with comments above its blocks, between them and inside them. -/
def commentedRules : List Node :=
  [.comment ['1'], .rule ['a'] [.comment ['2'], .declaration ⟨['b'], ['c'], false⟩],
    .comment ['3'], .comment ['4'],
    .atBlock "media".toList ['x'] [.rule ['d'] [.comment ['5']], .comment ['6']]]

/-- The second block, which has a comment right above it, is left with an empty row there. -/
theorem print_strips_comments_commentedRules :
    print { stripComments := true } commentedRules =
        "a \x7b\n  b: c;\n\x7d\n\n@media x \x7b\n  d \x7b\n  \x7d\n\x7d\n".toList ∧
      print { stripComments := true } commentedRules =
        print {} (withoutComments commentedRules) ∧
      (rows { stripComments := true } commentedRules).filter Row.isFilled =
        (rows {} commentedRules).filter Row.isLeft := by
  obtain ⟨same, -, -, left⟩ :=
    print_strips_comments (s := { stripComments := true }) rfl commentedRules
  exact ⟨by decide, same, left⟩

end Strip

end Swatch
