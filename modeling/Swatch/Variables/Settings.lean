/-
Module: Swatch.Variables.Settings
Purpose: How generated variables are named and laid out.
Main exports:
  VariableSettings, VariableProblem, VariableSettings.validate, VariableSettings.name
-/
import Swatch.Text.Printable

namespace Swatch

/-- How generated variables are named and where they are declared. -/
structure VariableSettings where
  /-- The stem of the names, without the two hyphens before it. -/
  stem : Text := "color".toList
  /-- The selector of the rule that declares the variables. -/
  rootSelector : Text := ":root".toList
  /-- Whether a comment above each declaration lists the literals that it replaces. -/
  provenance : Bool := true
deriving DecidableEq, Repr, Inhabited

/-- What is wrong with variable settings. -/
inductive VariableProblem where
  | emptyStem
  | leadingHyphen (stem : Text)
  | strangeCharacter (stem : Text)
  | blankSelector
deriving DecidableEq, Repr, Inhabited

/-- A character that the stem of a name may hold. -/
def isStemChar (c : Char) : Bool := c.isAlphanum || c == '-' || c == '_'

/-- The settings that can be used: the stem has to continue a variable name, and the
selector must not be blank. -/
def VariableSettings.validate (s : VariableSettings) : Except VariableProblem Unit :=
  if s.stem = [] then .error .emptyStem
  else if s.stem.head? = some '-' then .error (.leadingHyphen s.stem)
  else if !s.stem.all isStemChar then .error (.strangeCharacter s.stem)
  else if trim s.rootSelector = [] then .error .blankSelector
  else .ok ()

/-- The problem in words. -/
def VariableProblem.message : VariableProblem → Text
  | .emptyStem => "invalid configuration: var_prefix must not be empty".toList
  | .leadingHyphen stem =>
    "invalid configuration: var_prefix ".toList ++ quoted stem ++
      " must not start with '-'; '--' is added automatically".toList
  | .strangeCharacter stem =>
    "invalid configuration: var_prefix ".toList ++ quoted stem ++
      " may only contain ASCII letters, digits, '-' and '_'".toList
  | .blankSelector => "invalid configuration: root_selector must not be empty".toList

/-- The name of the variable with a number. -/
def VariableSettings.name (s : VariableSettings) (index : Nat) : Text :=
  "--".toList ++ s.stem ++ '-' :: natural index

end Swatch
