/-
Module: Swatch.Proofs.Outline
Purpose: What stands where in a style sheet: its items, their texts and names, and its shape.
Main exports:
  headsAll, textsAll, namesAll, AllTexts, AllNames, outlineAll
-/
import Swatch.Sheet.Basic

namespace Swatch

/-!
### The texts of a style sheet
-/

mutual

/-- All items in an item, each without what is inside it, in document order. -/
def Node.heads : Node → List Node
  | .rule selector children => .rule selector [] :: headsAll children
  | .atBlock name params children => .atBlock name params [] :: headsAll children
  | .atStatement name params => [.atStatement name params]
  | .declaration d => [.declaration d]
  | .comment text => [.comment text]

/-- All items in a list of items, each without what is inside it. -/
def headsAll : List Node → List Node
  | [] => []
  | n :: rest => n.heads ++ headsAll rest

end

/-- The selector, the parameters or the value of an item: what is spelled from trees. -/
def Node.spelled? : Node → Option Text
  | .rule selector _ => some selector
  | .atBlock _ params _ => some params
  | .atStatement _ params => some params
  | .declaration d => some d.value
  | .comment _ => none

/-- The name of an at-rule or the property of a declaration: what is printed as it was
read. -/
def Node.name? : Node → Option Text
  | .rule _ _ => none
  | .atBlock name _ _ => some name
  | .atStatement name _ => some name
  | .declaration d => some d.property
  | .comment _ => none

/-- All selectors, parameters and values. -/
def textsAll (nodes : List Node) : List Text := (headsAll nodes).filterMap Node.spelled?

/-- All names of at-rules and properties. -/
def namesAll (nodes : List Node) : List Text := (headsAll nodes).filterMap Node.name?

section Parts

variable {P : Text → Prop} {part : Node → Option Text}

/-- A part of all items is of a kind if it is in the first of them and in the others. -/
theorem forall_part_cons {n : Node} {rest : List Node} :
    (∀ w ∈ (headsAll (n :: rest)).filterMap part, P w) ↔
      (∀ w ∈ (headsAll [n]).filterMap part, P w) ∧
        ∀ w ∈ (headsAll rest).filterMap part, P w := by
  have alone : headsAll [n] = n.heads := List.append_nil n.heads
  have whole : headsAll (n :: rest) = n.heads ++ headsAll rest := rfl
  rw [alone, whole, List.filterMap_append, List.forall_mem_append]

/-- An item with others inside it has the part that it has by itself, and theirs. -/
theorem forall_part_block {n head : Node} {children : List Node} {w : Text}
    (block : n.heads = head :: headsAll children) (own : part head = some w) :
    (∀ w ∈ (headsAll [n]).filterMap part, P w) ↔
      P w ∧ ∀ w ∈ (headsAll children).filterMap part, P w := by
  have alone : headsAll [n] = n.heads := List.append_nil n.heads
  rw [alone, block, List.filterMap_cons_some own, List.forall_mem_cons]

/-- An item with nothing inside it has the part that it has by itself. -/
theorem forall_part_single {n : Node} {w : Text} (single : n.heads = [n])
    (own : part n = some w) : (∀ w ∈ (headsAll [n]).filterMap part, P w) ↔ P w := by
  have alone : headsAll [n] = n.heads := List.append_nil n.heads
  rw [alone, single, List.filterMap_cons_some own, List.filterMap_nil, List.forall_mem_singleton]

end Parts

/-- All selectors, parameters and values are of a kind. -/
def AllTexts (P : Text → Prop) (nodes : List Node) : Prop := ∀ w ∈ textsAll nodes, P w

instance (P : Text → Prop) [DecidablePred P] (nodes : List Node) :
    Decidable (AllTexts P nodes) :=
  inferInstanceAs (Decidable (∀ w ∈ textsAll nodes, P w))

section AllTexts

variable {P : Text → Prop}

theorem allTexts_nil : AllTexts P [] := nofun

theorem allTexts_cons {n : Node} {rest : List Node} :
    AllTexts P (n :: rest) ↔ AllTexts P [n] ∧ AllTexts P rest :=
  forall_part_cons

theorem allTexts_rule {selector : Text} {children : List Node} :
    AllTexts P [.rule selector children] ↔ P selector ∧ AllTexts P children :=
  forall_part_block rfl rfl

theorem allTexts_atBlock {name params : Text} {children : List Node} :
    AllTexts P [.atBlock name params children] ↔ P params ∧ AllTexts P children :=
  forall_part_block rfl rfl

theorem allTexts_atStatement {name params : Text} :
    AllTexts P [.atStatement name params] ↔ P params :=
  forall_part_single rfl rfl

theorem allTexts_declaration {d : Declaration} :
    AllTexts P [.declaration d] ↔ P d.value :=
  forall_part_single rfl rfl

theorem allTexts_comment (text : Text) : AllTexts P [.comment text] := nofun

end AllTexts

/-- All names of at-rules and properties are of a kind. -/
def AllNames (P : Text → Prop) (nodes : List Node) : Prop := ∀ x ∈ namesAll nodes, P x

section AllNames

variable {P : Text → Prop}

theorem allNames_nil : AllNames P [] := nofun

theorem allNames_cons {n : Node} {rest : List Node} :
    AllNames P (n :: rest) ↔ AllNames P [n] ∧ AllNames P rest :=
  forall_part_cons

/-- A rule has no name, only those inside it. -/
theorem allNames_rule {selector : Text} {children : List Node} :
    AllNames P [.rule selector children] ↔ AllNames P children := by
  have alone : headsAll [.rule selector children] = .rule selector [] :: headsAll children :=
    List.append_nil (Node.rule selector children).heads
  rw [AllNames, namesAll, alone]
  rfl

theorem allNames_atBlock {name params : Text} {children : List Node} :
    AllNames P [.atBlock name params children] ↔ P name ∧ AllNames P children :=
  forall_part_block rfl rfl

theorem allNames_atStatement {name params : Text} :
    AllNames P [.atStatement name params] ↔ P name :=
  forall_part_single rfl rfl

theorem allNames_declaration {d : Declaration} :
    AllNames P [.declaration d] ↔ P d.property :=
  forall_part_single rfl rfl

theorem allNames_comment (text : Text) : AllNames P [.comment text] := nofun

end AllNames

/-!
### Outlines

An outline keeps the kinds of the items and the comments, and of each declaration what `f`
keeps of it.
-/

mutual

/-- The outline of an item. -/
def Node.outline (f : Declaration → Declaration) : Node → Node
  | .rule _ children => .rule [] (outlineAll f children)
  | .atBlock _ _ children => .atBlock [] [] (outlineAll f children)
  | .atStatement _ _ => .atStatement [] []
  | .declaration d => .declaration (f d)
  | .comment text => .comment text

/-- The outline of a list of items. -/
def outlineAll (f : Declaration → Declaration) : List Node → List Node
  | [] => []
  | n :: rest => n.outline f :: outlineAll f rest

end

/-- A declaration without its value. -/
def Declaration.unvalued (d : Declaration) : Declaration := ⟨d.property, [], false⟩

/-- No declaration at all: what all declarations have in common. -/
def Declaration.blank (_ : Declaration) : Declaration := ⟨[], [], false⟩

end Swatch
