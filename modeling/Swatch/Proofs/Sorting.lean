/-
Module: Swatch.Proofs.Sorting
Purpose: Sorting moves declarations inside their runs and nothing else.
Main exports:
  SortedAll, sortDeclarations_eq_self, sortedAll_sortDeclarations, headsAll_sortDeclarations,
  outlineAll_sortDeclarations, sortedAll_outlineAll
-/
import Swatch.Proofs.Outline
import Swatch.Sheet.Edit

namespace Swatch

/-!
### Sorted lists of items
-/

/-- Whether an item may stand right before the items: a declaration may not stand before one
with a smaller property. -/
def Node.Leads : Node → List Node → Prop
  | .declaration d, .declaration e :: _ => ¬e.property < d.property
  | _, _ => True

mutual

/-- An item inside which all runs of declarations are sorted. -/
def Node.Sorted : Node → Prop
  | .rule _ children => SortedAll children
  | .atBlock _ _ children => SortedAll children
  | .atStatement _ _ => True
  | .declaration _ => True
  | .comment _ => True

/-- Items among which, and inside which, all runs of declarations are sorted. -/
def SortedAll : List Node → Prop
  | [] => True
  | n :: rest => n.Sorted ∧ n.Leads rest ∧ SortedAll rest

end

theorem insertItem_of_leads {n : Node} {rest : List Node} (leads : n.Leads rest) :
    insertItem n rest = n :: rest := by
  cases n with
  | declaration d =>
      cases rest with
      | nil => rfl
      | cons m rest =>
          cases m with
          | declaration e => exact if_neg leads
          | rule selector children => rfl
          | atBlock name params children => rfl
          | atStatement name params => rfl
          | comment text => rfl
  | rule selector children => rfl
  | atBlock name params children => rfl
  | atStatement name params => rfl
  | comment text => rfl

mutual

theorem sortItem_eq_self {n : Node} (sorted : n.Sorted) : sortItem n = n := by
  cases n with
  | rule selector children => rw [sortItem, sortDeclarations_eq_self sorted]
  | atBlock name params children => rw [sortItem, sortDeclarations_eq_self sorted]
  | atStatement name params => rfl
  | declaration d => rfl
  | comment text => rfl

/-- Sorting changes nothing where all runs are sorted. -/
theorem sortDeclarations_eq_self {nodes : List Node} (sorted : SortedAll nodes) :
    sortDeclarations nodes = nodes := by
  cases nodes with
  | nil => rfl
  | cons n rest =>
      obtain ⟨inside, leads, more⟩ := sorted
      rw [sortDeclarations, sortItem_eq_self inside, sortDeclarations_eq_self more,
        insertItem_of_leads leads]

end

/-- What may stand before a sorted run may stand before it with one more declaration, unless
that one is smaller. -/
theorem leads_insertDeclaration {d e : Declaration} {rest : List Node}
    (leads : Node.Leads (.declaration e) rest) (order : ¬d.property < e.property) :
    Node.Leads (.declaration e) (insertDeclaration d rest) := by
  rw [insertDeclaration.eq_def]
  split
  next f more =>
    split
    next => exact leads
    next => exact order
  next => exact order

theorem sortedAll_insertDeclaration {d : Declaration} {nodes : List Node}
    (sorted : SortedAll nodes) : SortedAll (insertDeclaration d nodes) := by
  induction nodes with
  | nil => exact ⟨trivial, trivial, trivial⟩
  | cons n rest ih =>
      obtain ⟨inside, leads, more⟩ := sorted
      cases n with
      | declaration e =>
          rw [insertDeclaration]
          split
          next smaller =>
            have order : ¬d.property < e.property := List.lt_asymm smaller
            exact ⟨trivial, leads_insertDeclaration leads order, ih more⟩
          next order => exact ⟨trivial, order, trivial, leads, more⟩
      | rule selector children => exact ⟨trivial, trivial, inside, leads, more⟩
      | atBlock name params children => exact ⟨trivial, trivial, inside, leads, more⟩
      | atStatement name params => exact ⟨trivial, trivial, inside, leads, more⟩
      | comment text => exact ⟨trivial, trivial, inside, leads, more⟩

theorem sortedAll_insertItem {n : Node} {nodes : List Node} (inside : n.Sorted)
    (sorted : SortedAll nodes) : SortedAll (insertItem n nodes) := by
  cases n with
  | declaration d => exact sortedAll_insertDeclaration sorted
  | rule selector children => exact ⟨inside, trivial, sorted⟩
  | atBlock name params children => exact ⟨inside, trivial, sorted⟩
  | atStatement name params => exact ⟨inside, trivial, sorted⟩
  | comment text => exact ⟨inside, trivial, sorted⟩

mutual

theorem sorted_sortItem (n : Node) : (sortItem n).Sorted := by
  cases n with
  | rule selector children => exact sortedAll_sortDeclarations children
  | atBlock name params children => exact sortedAll_sortDeclarations children
  | atStatement name params => trivial
  | declaration d => trivial
  | comment text => trivial

/-- Sorting sorts all runs. -/
theorem sortedAll_sortDeclarations (nodes : List Node) :
    SortedAll (sortDeclarations nodes) := by
  cases nodes with
  | nil => trivial
  | cons n rest =>
      exact sortedAll_insertItem (sorted_sortItem n) (sortedAll_sortDeclarations rest)

end

/-!
### What sorting leaves alone
-/

theorem heads_insertDeclaration (d : Declaration) (nodes : List Node) :
    (headsAll (insertDeclaration d nodes)).Perm (.declaration d :: headsAll nodes) := by
  induction nodes with
  | nil => exact .refl _
  | cons n rest ih =>
      cases n with
      | declaration e =>
          rw [insertDeclaration]
          split
          next => exact (ih.cons (.declaration e)).trans (.swap _ _ _)
          next => exact .refl _
      | rule selector children => exact .refl _
      | atBlock name params children => exact .refl _
      | atStatement name params => exact .refl _
      | comment text => exact .refl _

theorem heads_insertItem (n : Node) (nodes : List Node) :
    (headsAll (insertItem n nodes)).Perm (n.heads ++ headsAll nodes) := by
  cases n with
  | declaration d => exact heads_insertDeclaration d nodes
  | rule selector children => exact .refl _
  | atBlock name params children => exact .refl _
  | atStatement name params => exact .refl _
  | comment text => exact .refl _

mutual

theorem heads_sortItem (n : Node) : (sortItem n).heads.Perm n.heads := by
  cases n with
  | rule selector children => exact (headsAll_sortDeclarations children).cons _
  | atBlock name params children => exact (headsAll_sortDeclarations children).cons _
  | atStatement name params => exact .refl _
  | declaration d => exact .refl _
  | comment text => exact .refl _

/-- Sorting keeps all items, with their names and texts. -/
theorem headsAll_sortDeclarations (nodes : List Node) :
    (headsAll (sortDeclarations nodes)).Perm (headsAll nodes) := by
  cases nodes with
  | nil => exact .refl _
  | cons n rest =>
      exact (heads_insertItem _ _).trans
        ((heads_sortItem n).append (headsAll_sortDeclarations rest))

end

/-!
### Sorting and outlines
-/

theorem outlineAll_insertDeclaration (d : Declaration) (nodes : List Node) :
    outlineAll Declaration.blank (insertDeclaration d nodes) =
      .declaration d.blank :: outlineAll Declaration.blank nodes := by
  induction nodes with
  | nil => rfl
  | cons n rest ih =>
      cases n with
      | declaration e =>
          rw [insertDeclaration]
          split
          next =>
            rw [outlineAll, ih, outlineAll]
            rfl
          next => rfl
      | rule selector children => rfl
      | atBlock name params children => rfl
      | atStatement name params => rfl
      | comment text => rfl

theorem outlineAll_insertItem (n : Node) (nodes : List Node) :
    outlineAll Declaration.blank (insertItem n nodes) =
      n.outline Declaration.blank :: outlineAll Declaration.blank nodes := by
  cases n with
  | declaration d => exact outlineAll_insertDeclaration d nodes
  | rule selector children => rfl
  | atBlock name params children => rfl
  | atStatement name params => rfl
  | comment text => rfl

mutual

theorem outline_sortItem (n : Node) :
    (sortItem n).outline Declaration.blank = n.outline Declaration.blank := by
  cases n with
  | rule selector children =>
      rw [sortItem, Node.outline, Node.outline, outlineAll_sortDeclarations children]
  | atBlock name params children =>
      rw [sortItem, Node.outline, Node.outline, outlineAll_sortDeclarations children]
  | atStatement name params => rfl
  | declaration d => rfl
  | comment text => rfl

/-- Sorting leaves every item in its place that is no declaration. -/
theorem outlineAll_sortDeclarations (nodes : List Node) :
    outlineAll Declaration.blank (sortDeclarations nodes) =
      outlineAll Declaration.blank nodes := by
  cases nodes with
  | nil => rfl
  | cons n rest =>
      rw [sortDeclarations, outlineAll_insertItem, outline_sortItem,
        outlineAll_sortDeclarations rest, outlineAll]

end

section Outline

variable {f : Declaration → Declaration}

theorem leads_outline (keeps : ∀ d, (f d).property = d.property) (n : Node)
    (rest : List Node) : (n.outline f).Leads (outlineAll f rest) ↔ n.Leads rest := by
  cases n with
  | declaration d =>
      cases rest with
      | nil => rfl
      | cons m rest =>
          cases m with
          | declaration e =>
              simp only [Node.outline, outlineAll, Node.Leads, keeps]
          | rule selector children => rfl
          | atBlock name params children => rfl
          | atStatement name params => rfl
          | comment text => rfl
  | rule selector children => rfl
  | atBlock name params children => rfl
  | atStatement name params => rfl
  | comment text => rfl

mutual

theorem sorted_outline (keeps : ∀ d, (f d).property = d.property) (n : Node) :
    (n.outline f).Sorted ↔ n.Sorted := by
  cases n with
  | rule selector children => exact sortedAll_outlineAll keeps children
  | atBlock name params children => exact sortedAll_outlineAll keeps children
  | atStatement name params => rfl
  | declaration d => rfl
  | comment text => rfl

/-- Whether runs are sorted depends on the kinds of the items and on the properties alone. -/
theorem sortedAll_outlineAll (keeps : ∀ d, (f d).property = d.property) (nodes : List Node) :
    SortedAll (outlineAll f nodes) ↔ SortedAll nodes := by
  cases nodes with
  | nil => rfl
  | cons n rest =>
      rw [outlineAll, SortedAll, SortedAll, sorted_outline keeps n, leads_outline keeps,
        sortedAll_outlineAll keeps rest]

end

end Outline

/-- Items with the properties of sorted items are sorted. -/
theorem SortedAll.of_outline {nodes others : List Node} (sorted : SortedAll nodes)
    (same : outlineAll Declaration.unvalued nodes = outlineAll Declaration.unvalued others) :
    SortedAll others := by
  have shows (ns : List Node) : SortedAll (outlineAll Declaration.unvalued ns) ↔ SortedAll ns :=
    sortedAll_outlineAll (f := Declaration.unvalued) (fun _ => rfl) ns
  rw [← shows, ← same, shows]
  exact sorted

end Swatch
