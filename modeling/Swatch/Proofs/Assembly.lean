/-
Module: Swatch.Proofs.Assembly
Purpose: The rule of the variables and the sheet below it are printed as one sheet, with the
  empty line that belongs between a block and what follows it.
Main exports:
  print_eq_nil_iff, FormatSettings.lineBelow, print_cons_of_isBlock, assemble_prints_one_sheet
-/
import Swatch.Proofs.Plain

namespace Swatch

/-!
### What leaves no text

The two parts of an assembled sheet are printed apart.  Whether an empty line is due between
them is read off the text of the second part, and that is the same as looking at its items only
because every item that is printed leaves some text.
-/

/-- Nothing is printed exactly where the settings leave nothing to be printed. -/
theorem print_eq_nil_iff (s : FormatSettings) (nodes : List Node) :
    print s nodes = [] ↔ visible s nodes = [] := by
  rw [← print_visible]
  cases visible s nodes with
  | nil => exact iff_of_true rfl rfl
  | cons n rest =>
      apply iff_of_false
      · intro empty
        have parts := printItems_cons (s := s.keeping) rfl 0 none n rest []
        rw [List.append_nil, ← print, empty] at parts
        have item := (List.append_eq_nil_iff.mp parts.symm).2
        exact printItem_ne_nil s.keeping 0 n (List.append_eq_nil_iff.mp item).1
      · exact List.cons_ne_nil n rest

/-- The empty line below a block, where the settings ask for it and leave something to be
printed there. -/
def FormatSettings.lineBelow (s : FormatSettings) (nodes : List Node) : Text :=
  if s.blankLines = true ∧ visible s nodes ≠ [] then ['\n'] else []

/-- A block and the items below it are printed as the block, the empty line and the items by
themselves. -/
theorem print_cons_of_isBlock (s : FormatSettings) {block : Node}
    (isBlock : block.isBlock = true) (nodes : List Node) :
    print s (block :: nodes) = print s [block] ++ s.lineBelow nodes ++ print s nodes := by
  have comment : block.isComment = false := by
    cases block with
    | comment text => cases isBlock
    | _ => rfl
  have below : printItems s 0 (some block) nodes = s.lineBelow nodes ++ print s nodes := by
    rw [printItems_after_block s 0 isBlock]
    change (if (print s nodes).isEmpty then [] else _ ++ print s nodes) = _
    by_cases empty : print s nodes = []
    · have unseen := (print_eq_nil_iff s nodes).mp empty
      simp [FormatSettings.lineBelow, empty, unseen]
    · have seen : visible s nodes ≠ [] := fun none => empty ((print_eq_nil_iff s nodes).mpr none)
      simp [FormatSettings.lineBelow, empty, seen]
  have first : print s (block :: nodes) =
      printItem s 0 block ++ printItems s 0 (some block) nodes := by
    simp [print, printItems, comment, FormatSettings.gap]
  have alone : print s [block] = printItem s 0 block := by
    simp [print, printItems, comment, FormatSettings.gap]
  rw [first, below, alone, List.append_assoc]

/-- Assembling is printing one sheet, in which the rule of the variables stands first.  The sheet
below is printed as it is by itself, behind an empty line where the settings ask for one and
leave something of the sheet to be printed. -/
theorem assemble_prints_one_sheet (n : VariableSettings) (s : FormatSettings)
    (groups : List Group) (nodes : List Node) :
    assemble n s groups nodes = print s (rootRule n groups :: nodes) ∧
      assemble n s groups nodes =
        print s [rootRule n groups] ++ s.lineBelow nodes ++ print s nodes := by
  have whole := assemble_eq_print n s groups nodes
  refine ⟨whole, ?_⟩
  rw [whole]
  exact print_cons_of_isBlock s rfl nodes

end Swatch
