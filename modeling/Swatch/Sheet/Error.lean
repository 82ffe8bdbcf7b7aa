/-
Module: Swatch.Sheet.Error
Purpose: Why a style sheet cannot be read or printed.
Main exports:
  FormatProblem, SheetError, SheetError.message
-/
import Swatch.Text.Printable

namespace Swatch

/-- What is wrong with layout settings. -/
inductive FormatProblem where
  | versionZero
  | badIndent (indent : Text)
deriving DecidableEq, Repr, Inhabited

/-- Why a style sheet cannot be read, with the place of the fault.  An item that cannot be
read is kept as source text. -/
inductive SheetError where
  | invalidRule (place : Position) (item : Text)
  | invalidDeclaration (place : Position) (item : Text)
  | unterminatedString (place : Position)
  | invalidUrl (place : Position)
  | invalidSettings (problem : FormatProblem)
deriving DecidableEq, Repr, Inhabited

/-- The problem in words. -/
def FormatProblem.message : FormatProblem → Text
  | .versionZero => "format version must be >= 1".toList
  | .badIndent indent =>
    "indent must contain only spaces or tabs, got ".toList ++ quoted indent

/-- The error in words. -/
def SheetError.message : SheetError → Text
  | .invalidRule place item =>
    "invalid rule at ".toList ++ place.text ++ ": ".toList ++ quoted item
  | .invalidDeclaration place item =>
    "invalid declaration at ".toList ++ place.text ++ ": ".toList ++ quoted item
  | .unterminatedString place => "string broken by a newline at ".toList ++ place.text
  | .invalidUrl place => "malformed url() at ".toList ++ place.text
  | .invalidSettings problem => "invalid configuration: ".toList ++ problem.message

end Swatch
