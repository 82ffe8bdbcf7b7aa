/-
Module: Swatch.Sheet.Basic
Purpose: Style sheets as trees of rules, declarations and comments.
Main exports:
  Declaration, Node, Node.declarations, Node.mapDeclarations
-/
import Swatch.Text.Basic

namespace Swatch

/-- A property with its value. -/
structure Declaration where
  property : Text
  value : Text
  important : Bool := false
deriving DecidableEq, Repr, Inhabited

/-- An item of a style sheet.  An at-rule is either a statement or has a block, which may be
empty. -/
inductive Node where
  | rule (selector : Text) (children : List Node)
  | atBlock (name params : Text) (children : List Node)
  | atStatement (name params : Text)
  | declaration (declaration : Declaration)
  | comment (text : Text)
deriving Repr, Inhabited

namespace Node

/-- Whether the item is printed with braces. -/
def isBlock : Node → Bool
  | .rule _ _ => true
  | .atBlock _ _ _ => true
  | _ => false

/-- Whether the item is a comment. -/
def isComment : Node → Bool
  | .comment _ => true
  | _ => false

/-!
### Equality
-/

mutual

/-- Whether two items are the same. -/
def same : Node → Node → Bool
  | .rule s c, .rule s' c' => s == s' && sameAll c c'
  | .atBlock n p c, .atBlock n' p' c' => n == n' && p == p' && sameAll c c'
  | .atStatement n p, .atStatement n' p' => n == n' && p == p'
  | .declaration d, .declaration d' => d == d'
  | .comment t, .comment t' => t == t'
  | _, _ => false

/-- Whether two lists of items are the same. -/
def sameAll : List Node → List Node → Bool
  | [], [] => true
  | a :: as, b :: bs => same a b && sameAll as bs
  | _, _ => false

end

mutual

theorem same_iff (a b : Node) : same a b = true ↔ a = b := by
  cases a <;> cases b <;> simp [same, sameAll_iff, and_assoc]

theorem sameAll_iff (as bs : List Node) : sameAll as bs = true ↔ as = bs := by
  cases as with
  | nil => cases bs <;> simp [sameAll]
  | cons a as =>
    cases bs with
    | nil => simp [sameAll]
    | cons b bs => simp [sameAll, same_iff a b, sameAll_iff as bs]

end

instance : DecidableEq Node := fun a b => decidable_of_iff _ (same_iff a b)

/-!
### Declarations
-/

mutual

/-- All declarations of an item, in document order. -/
def declarations : Node → List Declaration
  | .rule _ children => declarationsAll children
  | .atBlock _ _ children => declarationsAll children
  | .atStatement _ _ => []
  | .declaration d => [d]
  | .comment _ => []

/-- All declarations of a list of items, in document order. -/
def declarationsAll : List Node → List Declaration
  | [] => []
  | n :: rest => n.declarations ++ declarationsAll rest

end

mutual

/-- The item with every declaration changed by `f`. -/
def mapDeclarations (f : Declaration → Declaration) : Node → Node
  | .rule selector children => .rule selector (mapDeclarationsAll f children)
  | .atBlock name params children => .atBlock name params (mapDeclarationsAll f children)
  | .atStatement name params => .atStatement name params
  | .declaration d => .declaration (f d)
  | .comment text => .comment text

/-- The items with every declaration changed by `f`. -/
def mapDeclarationsAll (f : Declaration → Declaration) : List Node → List Node
  | [] => []
  | n :: rest => n.mapDeclarations f :: mapDeclarationsAll f rest

end

mutual

theorem declarations_mapDeclarations (f : Declaration → Declaration) (n : Node) :
    (n.mapDeclarations f).declarations = n.declarations.map f := by
  cases n <;> simp [mapDeclarations, declarations, declarationsAll_mapDeclarationsAll]

/-- Changing the declarations changes the walk over them and nothing else of it. -/
theorem declarationsAll_mapDeclarationsAll (f : Declaration → Declaration)
    (nodes : List Node) :
    declarationsAll (mapDeclarationsAll f nodes) = (declarationsAll nodes).map f := by
  cases nodes with
  | nil => rfl
  | cons n rest =>
    simp [mapDeclarationsAll, declarationsAll, declarations_mapDeclarations f n,
      declarationsAll_mapDeclarationsAll f rest]

end

mutual

theorem mapDeclarations_id (n : Node) : n.mapDeclarations id = n := by
  cases n with
  | rule selector children => exact congrArg (rule selector) (mapDeclarationsAll_id children)
  | atBlock name params children =>
    exact congrArg (atBlock name params) (mapDeclarationsAll_id children)
  | atStatement name params => rfl
  | declaration d => rfl
  | comment text => rfl

theorem mapDeclarationsAll_id (nodes : List Node) : mapDeclarationsAll id nodes = nodes := by
  cases nodes with
  | nil => rfl
  | cons n rest =>
    rw [mapDeclarationsAll, mapDeclarations_id n, mapDeclarationsAll_id rest]

end

end Node

end Swatch
