/-
Module: Swatch.Variables.Group
Purpose: Grouping colour literals by the colour they denote.
Main exports:
  Group, Grouping, Bucket, buildGroups, Grouping.groupOf
-/
import Swatch.Color.Basic
import Swatch.Variables.Settings

namespace Swatch

/-- The literals that denote one colour, and the variable that replaces them. -/
structure Group where
  /-- The place in the order in which the colours were first met, from zero on. -/
  index : Nat
  color : Color
  /-- The distinct literals in the order in which they were met. -/
  tokens : List Text
  name : Text
deriving DecidableEq, Repr, Inhabited

namespace Group

/-- The value that refers to the variable. -/
def reference (g : Group) : Text := "var(".toList ++ g.name ++ [')']

/-- The declaration of the variable on a line of its own. -/
def declarationLine (g : Group) : Text :=
  g.name ++ ": ".toList ++ g.color.text ++ [';']

/-- The literals of the group, separated by commas. -/
def provenance (g : Group) : Text := joined ", ".toList g.tokens

/-- The literals of the group as a comment. -/
def provenanceComment (g : Group) : Text :=
  "/* ".toList ++ g.provenance ++ " */".toList

end Group

/-- The outcome of grouping. -/
structure Grouping where
  groups : List Group := []
  /-- Why literals denote no colour, once for each time they were met. -/
  rejected : List ColorError := []
deriving DecidableEq, Repr, Inhabited

/-- The group that holds a literal. -/
def groupOf? (groups : List Group) (token : Text) : Option Group :=
  groups.find? fun g => g.tokens.contains token

/-- The group that holds a literal. -/
def Grouping.groupOf (g : Grouping) (token : Text) : Option Group := groupOf? g.groups token

/-- A colour with its literals, before it has a number. -/
structure Bucket where
  color : Color
  tokens : List Text
deriving DecidableEq, Repr, Inhabited

/-- Puts a literal into the bucket of its colour, unless it is there already.  A colour that
was not met before gets a new bucket at the end. -/
def insertToken (color : Color) (token : Text) : List Bucket → List Bucket
  | [] => [⟨color, [token]⟩]
  | b :: rest =>
    if b.color = color then
      (if b.tokens.contains token then b else { b with tokens := b.tokens ++ [token] }) :: rest
    else b :: insertToken color token rest

/-- Resolves literals in order; the buckets so far are `buckets`. -/
def fillBuckets (resolve : Resolver) (buckets : List Bucket) :
    List Text → List Bucket × List ColorError
  | [] => (buckets, [])
  | token :: rest =>
    match resolve token with
    | .ok color => fillBuckets resolve (insertToken color token buckets) rest
    | .error e =>
      let (buckets, errors) := fillBuckets resolve buckets rest
      (buckets, e :: errors)

/-- Numbers buckets from `first` on and names their variables. -/
def numberBuckets (s : VariableSettings) (first : Nat) : List Bucket → List Group
  | [] => []
  | b :: rest => ⟨first, b.color, b.tokens, s.name first⟩ :: numberBuckets s (first + 1) rest

/-- Groups literals by the colour they denote, in the order in which the colours are first
met. -/
def buildGroups (s : VariableSettings) (resolve : Resolver) (tokens : List Text) : Grouping :=
  let (buckets, rejected) := fillBuckets resolve [] tokens
  ⟨numberBuckets s 0 buckets, rejected⟩

end Swatch
