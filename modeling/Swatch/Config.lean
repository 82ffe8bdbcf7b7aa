/-
Module: Swatch.Config
Purpose: The configuration of a run, and reading it from YAML.
Main exports:
  Config, ConfigError, Config.validate, Config.ofYaml?, Config.ofText?, Config.read
-/
import Swatch.Files.Tree
import Swatch.Sheet.Print
import Swatch.Variables.Settings
import Swatch.Yaml.Read

namespace Swatch

/-- The configuration of a run. -/
structure Config where
  version : Text := "1.0".toList
  name : Option Text := none
  format : FormatSettings := {}
  naming : VariableSettings := {}
deriving DecidableEq, Repr, Inhabited

/-- Why a configuration cannot be used. -/
inductive ConfigError where
  | unreadable (error : FileError)
  | malformed
  | unsupportedVersion (version : Text)
  | invalidFormat (problem : FormatProblem)
  | invalidVariables (problem : VariableProblem)
deriving DecidableEq, Repr, Inhabited

/-- The error in words. -/
def ConfigError.message : ConfigError → Text
  | .unreadable error => "failed to read config file: ".toList ++ error.message
  | .malformed => "failed to parse YAML".toList
  | .unsupportedVersion version => "unsupported config version: ".toList ++ version
  | .invalidFormat problem =>
    "validation error: format: ".toList ++ (SheetError.invalidSettings problem).message
  | .invalidVariables problem => "validation error: dedup: ".toList ++ problem.message

namespace Config

/-- The versions of the configuration that are understood. -/
def versions : List Text := ["1.0".toList, "1".toList]

/-- Checks the version, the layout settings and the variable settings, in this order. -/
def validate (c : Config) : Except ConfigError Unit := do
  if !versions.contains c.version then throw (.unsupportedVersion c.version)
  c.format.validate.mapError .invalidFormat
  c.naming.validate.mapError .invalidVariables

end Config

/-!
### Values of a document
-/

namespace Yaml

/-- The words for a missing value. -/
def nullWords : List Text := [['~'], "null".toList, "Null".toList, "NULL".toList]

/-- Whether a scalar may stand for a value whose tag is `expected`: if it is plain, whatever its
tag, or literal with that tag. -/
def standsFor (expected : Text) (style : Style) (tag : Option Text) : Bool :=
  style == .plain || (style == .literal && tag == some expected)

/-- The value of a non-empty run of digits of a base. -/
def digits? (base : Nat) (s : Text) : Option Nat :=
  if !s.isEmpty && s.all (fun c => isHexDigit c && hexValue c < base) then
    some (s.foldl (fun n c => base * n + hexValue c) 0)
  else none

/-- A number in one of the notations with a mark for the base. -/
def basedNumber? (s : Text) : Option Nat :=
  ((strip? "0x".toList s).bind (digits? 16)).or
    (((strip? "0o".toList s).bind (digits? 8)).or ((strip? "0b".toList s).bind (digits? 2)))

namespace Document

variable (d : Document)

/-- Any scalar as text. -/
def text? (node : Yaml) : Option Text :=
  match d.resolve node with
  | .scalar _ _ text => some text
  | _ => none

/-- Any scalar as text, where the missing value counts as no text.  A plain scalar with a tag is
the missing value only if that is its tag, and then it has to be one of its words. -/
def optionalText? (node : Yaml) : Option (Option Text) :=
  match d.resolve node with
  | .scalar .plain none text =>
    some (if text.isEmpty || nullWords.contains text then none else some text)
  | .scalar .plain (some tag) text =>
    if tag ≠ Tag.null then some (some text)
    else if nullWords.contains text then some none else none
  | .scalar _ _ text => some (some text)
  | _ => none

/-- A truth value: a word in lower case, upper case or with a capital. -/
def flag? (node : Yaml) : Option Bool :=
  match d.resolve node with
  | .scalar style tag text =>
    if !standsFor Tag.bool style tag then none
    else if ["true".toList, "True".toList, "TRUE".toList].contains text then some true
    else if ["false".toList, "False".toList, "FALSE".toList].contains text then some false
    else none
  | _ => none

/-- A natural number of at most 32 bits, with an optional plus, in base ten without leading zeros
or in a marked base. -/
def number? (node : Yaml) : Option Nat :=
  match d.resolve node with
  | .scalar style tag text =>
    let unsigned := (strip? ['+'] text).getD text
    let padded := unsigned.head? == some '0' && 1 < unsigned.length
    let value := (basedNumber? unsigned).or (if padded then none else digits? 10 unsigned)
    if standsFor Tag.int style tag then value.filter (· < 0x100000000) else none
  | _ => none

/-- The fields of a mapping by name.  What is not written is a mapping without fields; an
empty text in quotes is written, and no mapping. -/
def fields? (node : Yaml) : Option (List (Text × Yaml)) :=
  match d.resolve node with
  | .mapping entries => entries.mapM fun (key, value) => (d.text? key).map (·, value)
  | .scalar .plain _ [] => some []
  | _ => none

end Document

/-- The value of the field `name`, which must not be there twice. -/
def field? (fields : List (Text × Yaml)) (name : String) : Option (Option Yaml) :=
  match fields.filter (·.1 = name.toList) with
  | [] => some none
  | [(_, value)] => some (some value)
  | _ => none

/-- The value of the field `name`, read by `read`, or `fallback` where it is not there. -/
def fieldOr {α : Type} (fields : List (Text × Yaml)) (name : String) (read : Yaml → Option α)
    (fallback : α) : Option α :=
  (field? fields name).bind fun
    | none => some fallback
    | some value => read value

end Yaml

namespace FormatSettings

/-- Layout settings; a field that is not there keeps its default. -/
def ofYaml? (d : Yaml.Document) (node : Yaml) : Option FormatSettings := do
  let fields ← d.fields? node
  let base : FormatSettings := {}
  return {
    version := ← Yaml.fieldOr fields "version" d.number? base.version
    indent := ← Yaml.fieldOr fields "indent" d.text? base.indent
    normalizeCommas := ← Yaml.fieldOr fields "normalize_commas" d.flag? base.normalizeCommas
    blankLines := ← Yaml.fieldOr fields "blank_line_between_rules" d.flag? base.blankLines
    stripComments := ← Yaml.fieldOr fields "strip_comments" d.flag? base.stripComments
    sortDeclarations := ← Yaml.fieldOr fields "sort_declarations" d.flag? base.sortDeclarations }

end FormatSettings

namespace VariableSettings

/-- Variable settings; a field that is not there keeps its default. -/
def ofYaml? (d : Yaml.Document) (node : Yaml) : Option VariableSettings := do
  let fields ← d.fields? node
  let base : VariableSettings := {}
  return {
    stem := ← Yaml.fieldOr fields "var_prefix" d.text? base.stem
    rootSelector := ← Yaml.fieldOr fields "root_selector" d.text? base.rootSelector
    provenance := ← Yaml.fieldOr fields "emit_provenance" d.flag? base.provenance }

end VariableSettings

namespace Config

/-- A configuration; only the version has to be there.  Unknown fields are ignored. -/
def ofYaml? (d : Yaml.Document) (node : Yaml) : Option Config := do
  let fields ← d.fields? node
  let version ← (← Yaml.field? fields "version").bind d.text?
  return {
    version
    name := ← Yaml.fieldOr fields "name" d.optionalText? none
    format := ← Yaml.fieldOr fields "format" (FormatSettings.ofYaml? d) {}
    naming := ← Yaml.fieldOr fields "dedup" (VariableSettings.ofYaml? d) {} }

/-- The configuration that a YAML text spells, if it spells one. -/
def ofText? (s : Text) : Option Config :=
  (Yaml.read s).bind fun d => ofYaml? d d.root

/-- Reads and checks a configuration.  `spelled` tells which configuration a text spells. -/
def read (s : Text) (spelled : Text → Option Config := ofText?) : Except ConfigError Config :=
  match spelled s with
  | none => .error .malformed
  | some c => do
    c.validate
    return c

end Config

end Swatch
