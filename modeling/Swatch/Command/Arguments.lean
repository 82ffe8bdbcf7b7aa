/-
Module: Swatch.Command.Arguments
Purpose: The arguments of the command line, and the help about them.
Main exports:
  Arguments, ArgumentError, ArgumentError.message, Arguments.Stop, Arguments.read, helpText
-/
import Swatch.Text.Printable

namespace Swatch

/-- What the command line asks for. -/
structure Arguments where
  source : Option Text := none
  target : Option Text := none
  config : Option Text := none
  logLevel : Option Text := none
  dryRun : Bool := false
deriving DecidableEq, Repr, Inhabited

/-- Why arguments make no sense. -/
inductive ArgumentError where
  | unexpected (argument : Text)
  | missingValue (option : Text)
  | needlessValue (option : Text)
  | repeated (option : Text)
  | emptyPath
deriving DecidableEq, Repr, Inhabited

/-- The error in words. -/
def ArgumentError.message : ArgumentError → Text
  | .unexpected argument => "error: unexpected argument ".toList ++ quoted argument
  | .missingValue option => "error: a value is required for ".toList ++ option
  | .needlessValue option => "error: no value is allowed for ".toList ++ option
  | .repeated option => "error: ".toList ++ option ++ " is given more than once".toList
  | .emptyPath => "error: a path must not be empty".toList

namespace Arguments

/-- Why arguments are not read to their end: the help is asked for, or they make no sense.  What
follows is not looked at. -/
inductive Stop where
  | help
  | error (error : ArgumentError)
deriving DecidableEq, Repr, Inhabited

/-- A path, which must not be empty. -/
def path (s : Text) : Except ArgumentError Text :=
  if s.isEmpty then .error .emptyPath else .ok s

/-- The options that take a value. -/
inductive Valued where
  | config
  | logLevel
deriving DecidableEq, Repr, Inhabited

/-- The name of an option. -/
def Valued.name : Valued → Text
  | .config => "--config".toList
  | .logLevel => "--log-level".toList

/-- The flag that keeps the result from being written. -/
def dryRunName : Text := "--dry-run".toList

/-- The flag that asks for the help. -/
def helpName : Text := "--help".toList

/-- The same flag as one letter, which may have more letters behind it. -/
def helpLetter : Text := "-h".toList

/-- Takes in an argument that is no option: the source, then the target. -/
def addPath (a : Arguments) (s : Text) : Except ArgumentError Arguments := do
  let s ← path s
  match a.source, a.target with
  | none, _ => return { a with source := some s }
  | some _, none => return { a with target := some s }
  | some _, some _ => throw (.unexpected s)

/-- Takes in an option with its value. -/
def addValue (a : Arguments) (option : Valued) (value : Text) : Except ArgumentError Arguments :=
  match option with
  | .config =>
    if a.config.isSome then .error (.repeated option.name)
    else (path value).map fun p => { a with config := some p }
  | .logLevel =>
    if a.logLevel.isSome then .error (.repeated option.name)
    else .ok { a with logLevel := some value }

/-- What an argument is by itself. -/
inductive Kind where
  /-- After two hyphens nothing is an option. -/
  | endOfOptions
  | path
  | dryRun
  | help
  | needlessValue (flag : Text)
  | option (option : Valued)
  | valued (option : Valued) (value : Text)
  | unknown
deriving DecidableEq, Repr, Inhabited

/-- The value that an argument gives to the option `name`. -/
def valueAfter? (name s : Text) : Option Text := strip? (name ++ ['=']) s

/-- Tells what an argument is.  Anything that starts with a hyphen is an option, except for
a single one. -/
def kindOf (s : Text) : Kind :=
  if s = ['-', '-'] then .endOfOptions
  else if s.head? ≠ some '-' ∨ s = ['-'] then .path
  else if s = dryRunName then .dryRun
  else if s = helpName ∨ helpLetter.isPrefixOf s then .help
  else if (valueAfter? dryRunName s).isSome then .needlessValue dryRunName
  else if (valueAfter? helpName s).isSome then .needlessValue helpName
  else if s = Valued.config.name then .option .config
  else if s = Valued.logLevel.name then .option .logLevel
  else
    match valueAfter? Valued.config.name s, valueAfter? Valued.logLevel.name s with
    | some value, _ => .valued .config value
    | none, some value => .valued .logLevel value
    | none, none => .unknown

/-- Takes in the rest of the arguments.  An option whose value is still missing stands in
`waiting`. -/
def readFrom (a : Arguments) (waiting : Option Valued) (ended : Bool) :
    List Text → Except Stop Arguments
  | [] =>
    match waiting with
    | some option => .error (.error (.missingValue option.name))
    | none => .ok a
  | s :: rest =>
    match waiting with
    | some option => do
      if kindOf s ≠ .path then throw (.error (.missingValue option.name))
      let a ← (a.addValue option s).mapError .error
      readFrom a none false rest
    | none =>
      if ended then do
        let a ← (a.addPath s).mapError .error
        readFrom a none true rest
      else
        match kindOf s with
        | .endOfOptions => readFrom a none true rest
        | .path => do
          let a ← (a.addPath s).mapError .error
          readFrom a none false rest
        | .dryRun =>
          if a.dryRun then .error (.error (.repeated s))
          else readFrom { a with dryRun := true } none false rest
        | .help => .error .help
        | .needlessValue flag => .error (.error (.needlessValue flag))
        | .option option => readFrom a (some option) false rest
        | .valued option value => do
          let a ← (a.addValue option value).mapError .error
          readFrom a none false rest
        | .unknown => .error (.error (.unexpected s))

/-- Reads the arguments of the command line. -/
def read (arguments : List Text) : Except Stop Arguments :=
  readFrom {} none false arguments

end Arguments

/-!
### The help
-/

/-- A row of the help: a name, and from column `width` on what it means. -/
def helpRow (width : Nat) (name : Text) (meaning : String) : Text :=
  [' ', ' '] ++ name ++ List.replicate (width - name.length) ' ' ++ meaning.toList ++ ['\n']

/-- The row of a positional argument. -/
def helpArgument (name meaning : String) : Text := helpRow 10 name.toList meaning

/-- The row of an option without a letter.  Letters have a column of their own. -/
def helpOption (name value : Text) (meaning : String) : Text :=
  helpRow 29 (List.replicate 4 ' ' ++ name ++ value) meaning

/-- The text that the help prints. -/
def helpText : Text :=
  "Replace repeated stylesheet colors with generated custom properties\n\n".toList ++
    "Usage: colorvars [OPTIONS] [SOURCE] [TARGET]\n\n".toList ++
    "Arguments:\n".toList ++
    helpArgument "[SOURCE]" "Stylesheet to read" ++
    helpArgument "[TARGET]"
      "Where to write the result (defaults to output.css next to the source)" ++
    "\nOptions:\n".toList ++
    helpOption Arguments.Valued.config.name " <FILE>".toList "YAML run configuration" ++
    helpOption Arguments.Valued.logLevel.name " <LOG_LEVEL>".toList
      "Tracing filter; RUST_LOG takes precedence [default: error]" ++
    helpOption Arguments.dryRunName []
      "Print the generated stylesheet to stdout instead of writing a file" ++
    helpRow 29 (Arguments.helpLetter ++ [',', ' '] ++ Arguments.helpName) "Print help"

end Swatch
