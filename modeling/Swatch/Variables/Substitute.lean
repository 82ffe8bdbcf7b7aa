/-
Module: Swatch.Variables.Substitute
Purpose: Replacing colour literals by variables, and declaring the variables.
Main exports:
  substitute, Report, deduplicate, rootRule, assemble
-/
import Swatch.Color.Literal
import Swatch.Sheet.Print
import Swatch.Variables.Group

namespace Swatch

/-!
### Substitution
-/

/-- The declaration with its value replaced, if the whole value is a literal of a group. -/
def Declaration.substitute (groups : List Group) (d : Declaration) : Declaration :=
  match groupOf? groups d.value with
  | some g => { d with value := g.reference }
  | none => d

/-- The items with every value replaced that as a whole is a literal of a group. -/
def substitute (groups : List Group) (nodes : List Node) : List Node :=
  Node.mapDeclarationsAll (Declaration.substitute groups) nodes

/-- How many declarations a substitution replaces. -/
def substitutions (groups : List Group) (nodes : List Node) : Nat :=
  (Node.declarationsAll nodes).countP fun d => (groupOf? groups d.value).isSome

/-- The outcome of a deduplication. -/
structure Report where
  /-- The distinct literals of the style sheet, in document order. -/
  tokens : List Text
  grouping : Grouping
  /-- How many declarations were replaced. -/
  substituted : Nat
  /-- The style sheet after the replacement. -/
  nodes : List Node
deriving DecidableEq, Repr, Inhabited

/-- Finds the literals of a style sheet, groups them and replaces them, with settings that
were found valid. -/
def report (s : VariableSettings) (resolve : Resolver) (nodes : List Node) : Report :=
  let tokens := literals nodes
  let grouping := buildGroups s resolve tokens
  { tokens
    grouping
    substituted := substitutions grouping.groups nodes
    nodes := substitute grouping.groups nodes }

/-- Finds the literals of a style sheet, groups them and replaces them. -/
def deduplicate (s : VariableSettings) (resolve : Resolver) (nodes : List Node) :
    Except VariableProblem Report := do
  s.validate
  return report s resolve nodes

/-- Valid settings are all that a report asks for. -/
theorem deduplicate_of_valid {s : VariableSettings} {resolve : Resolver}
    (valid : s.validate = .ok ()) (nodes : List Node) :
    deduplicate s resolve nodes = .ok (report s resolve nodes) := by
  rw [deduplicate, valid]
  rfl

/-!
### Assembly
-/

/-- The items that declare the variable of a group. -/
def Group.declarations (s : VariableSettings) (g : Group) : List Node :=
  (if s.provenance then [.comment g.provenance] else []) ++
    [.declaration { property := g.name, value := g.color.text }]

/-- The rule that declares the variables, in the order of their numbers.  It is there also
when there are none. -/
def rootRule (s : VariableSettings) (groups : List Group) : Node :=
  .rule s.rootSelector (groups.flatMap (Group.declarations s))

/-- The rule that declares the variables, printed above the style sheet. -/
def assemble (s : VariableSettings) (format : FormatSettings) (groups : List Group)
    (nodes : List Node) : Text :=
  let body := print format nodes
  print format [rootRule s groups] ++
    (if body.isEmpty then [] else (if format.blankLines then ['\n'] else []) ++ body)

end Swatch
