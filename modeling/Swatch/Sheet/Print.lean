/-
Module: Swatch.Sheet.Print
Purpose: Printing a style sheet.
Main exports:
  FormatSettings, FormatSettings.validate, printItems, print
-/
import Swatch.Sheet.Basic
import Swatch.Sheet.Error

namespace Swatch

/-- How a style sheet is read and printed. -/
structure FormatSettings where
  /-- The version of the layout rules, from one on. -/
  version : Nat := 1
  /-- The text before an item for each level of nesting. -/
  indent : Text := [' ', ' ']
  /-- Whether commas and brackets get the normal spacing. -/
  normalizeCommas : Bool := true
  /-- Whether an empty line stands between blocks. -/
  blankLines : Bool := true
  /-- Whether comments are left out. -/
  stripComments : Bool := false
  /-- Whether neighbouring declarations are sorted by property. -/
  sortDeclarations : Bool := false
deriving DecidableEq, Repr, Inhabited

/-- The settings that can be used: an indent of anything but spaces and tabs would change
the style sheet. -/
def FormatSettings.validate (s : FormatSettings) : Except FormatProblem Unit :=
  if s.version = 0 then .error .versionZero
  else if s.indent.all (fun c => c == ' ' || c == '\t') then .ok ()
  else .error (.badIndent s.indent)

/-- What stands before the braces or the semicolon of an at-rule. -/
def atRuleHead (name params : Text) : Text :=
  '@' :: (if params.isEmpty then name else name ++ ' ' :: params)

/-- A declaration on its line. -/
def Declaration.text (d : Declaration) : Text :=
  d.property ++ ": ".toList ++ d.value ++
    (if d.important then " !important".toList else []) ++ ";\n".toList

/-- The indent of a level. -/
def FormatSettings.margin (s : FormatSettings) (depth : Nat) : Text :=
  (List.replicate depth s.indent).flatten

/-- Whether an empty line stands between two neighbours: after a block, and before a block
unless a comment stands right above it. -/
def separates (previous node : Node) : Bool :=
  previous.isBlock || (node.isBlock && !previous.isComment)

/-- The empty line before an item, if there is one. -/
def FormatSettings.gap (s : FormatSettings) (previous : Option Node) (node : Node) : Text :=
  match previous with
  | some previous => if s.blankLines && separates previous node then ['\n'] else []
  | none => []

mutual

/-- An item at some level of nesting. -/
def printItem (s : FormatSettings) (depth : Nat) : Node → Text
  | .rule selector children =>
    s.margin depth ++ selector ++ " \x7b\n".toList ++ printItems s (depth + 1) none children ++
      s.margin depth ++ "\x7d\n".toList
  | .atBlock name params children =>
    s.margin depth ++ atRuleHead name params ++ " \x7b\n".toList ++
      printItems s (depth + 1) none children ++ s.margin depth ++ "\x7d\n".toList
  | .atStatement name params => s.margin depth ++ atRuleHead name params ++ ";\n".toList
  | .declaration d => s.margin depth ++ d.text
  | .comment text => s.margin depth ++ "/* ".toList ++ text ++ " */\n".toList

/-- The items of a list after `previous`, the last one printed before them. -/
def printItems (s : FormatSettings) (depth : Nat) (previous : Option Node) :
    List Node → Text
  | [] => []
  | n :: rest =>
    if s.stripComments && n.isComment then printItems s depth previous rest
    else s.gap previous n ++ printItem s depth n ++ printItems s depth (some n) rest

end

/-- A style sheet in the layout of the settings. -/
def print (s : FormatSettings) (nodes : List Node) : Text := printItems s 0 none nodes

end Swatch
