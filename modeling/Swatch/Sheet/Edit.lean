/-
Module: Swatch.Sheet.Edit
Purpose: Changing a style sheet: its declarations by hand, their order, and its layout.
Main exports:
  countDeclarations, setValues, setImportance, sortDeclarations, format
-/
import Swatch.Sheet.Print
import Swatch.Sheet.Read

namespace Swatch

/-!
### Changes by hand
-/

/-- How many declarations satisfy a condition. -/
def countDeclarations (holds : Declaration → Bool) (nodes : List Node) : Nat :=
  (Node.declarationsAll nodes).countP holds

/-- Every value `old` becomes `new`. -/
def setValues (old new : Text) (nodes : List Node) : List Node :=
  Node.mapDeclarationsAll (fun d => if d.value = old then { d with value := new } else d) nodes

/-- Every declaration of a property is marked as important or not. -/
def setImportance (property : Text) (important : Bool) (nodes : List Node) : List Node :=
  Node.mapDeclarationsAll
    (fun d => if d.property = property then { d with important } else d) nodes

/-!
### Sorting

A run of neighbouring declarations is sorted by property; all other items keep their place.
Properties are compared by code points, which is the order of their UTF-8 bytes.
-/

/-- Puts a declaration into the sorted run at the start of the items: behind the
declarations with a smaller property, and before those with the same one, which stood behind
it. -/
def insertDeclaration (d : Declaration) : List Node → List Node
  | .declaration e :: rest =>
    if e.property < d.property then .declaration e :: insertDeclaration d rest
    else .declaration d :: .declaration e :: rest
  | rest => .declaration d :: rest

/-- Puts an item before sorted items. -/
def insertItem (n : Node) (sorted : List Node) : List Node :=
  match n with
  | .declaration d => insertDeclaration d sorted
  | n => n :: sorted

mutual

/-- Sorts the runs inside an item. -/
def sortItem : Node → Node
  | .rule selector children => .rule selector (sortDeclarations children)
  | .atBlock name params children => .atBlock name params (sortDeclarations children)
  | .atStatement name params => .atStatement name params
  | .declaration d => .declaration d
  | .comment text => .comment text

/-- Sorts each run of neighbouring declarations, at every level.  Declarations of the same
property keep their order. -/
def sortDeclarations : List Node → List Node
  | [] => []
  | n :: rest => insertItem (sortItem n) (sortDeclarations rest)

end

/-!
### Layout
-/

/-- Reads a style sheet and prints it in the layout of the settings. -/
def format (s : FormatSettings) (source : Text) : Except SheetError Text :=
  match s.validate with
  | .error problem => .error (.invalidSettings problem)
  | .ok () => do
    let nodes ← parse s.normalizeCommas source
    return print s (if s.sortDeclarations then sortDeclarations nodes else nodes)

end Swatch
