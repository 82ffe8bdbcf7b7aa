/-
Module: Swatch.Command.Execute
Purpose: What the command line does and prints.
Main exports:
  Execution, execute
-/
import Swatch.Command.Arguments
import Swatch.Run

namespace Swatch

/-- The exit code and what was printed. -/
structure Execution where
  code : Nat
  stdout : Text := []
  stderr : Text := []
deriving DecidableEq, Repr, Inhabited

namespace Execution

/-- A line. -/
def line (s : Text) : Text := s ++ ['\n']

/-- An error with all its causes. -/
def failure (chain : List Text) : Execution :=
  { code := 1, stderr := line (joined ": ".toList ("Error".toList :: chain)) }

/-- More text before what was printed. -/
def after (stdout stderr : Text) (e : Execution) : Execution :=
  { e with stdout := stdout ++ e.stdout, stderr := stderr ++ e.stderr }

end Execution

/-- A configuration error and its causes.  The text of a cause is part of the error too. -/
def ConfigError.chain (path : Text) (e : ConfigError) : List Text :=
  ["loading config ".toList ++ path, e.message] ++
    match e with
    | .unreadable cause => [cause.message]
    | _ => []

/-- An error of a run and its causes.  The text of a cause is part of the error too. -/
def PipelineError.chain (e : PipelineError) : List Text :=
  e.message :: e.cause.toList

/-- The line that tells that a stage was reached; rejected literals have their own. -/
def Stage.progress : Stage → Text
  | .formatting => Execution.line "Formatting CSS file".toList
  | .formatted => Execution.line "CSS file formatted".toList
  | .rejected _ => []
  | .written path =>
    Execution.line ("Generated new CSS file with variables at: ".toList ++ path)

/-- The line that tells that a literal was rejected. -/
def Stage.complaint : Stage → Text
  | .rejected e => Execution.line ("Error processing color value: ".toList ++ e.message)
  | _ => []

/-- What a run prints.  A dry run keeps the standard output for the style sheet. -/
def RunReport.execution (dryRun : Bool) (r : RunReport) : Execution :=
  let ending : Execution :=
    match r.result with
    | .error e => .failure e.chain
    | .ok summary =>
      { code := 0, stdout := if summary.target.isNone then summary.outcome.css else [] }
  if dryRun then
    ending.after [] (r.stages.flatMap fun s => s.progress ++ s.complaint)
  else ending.after (r.stages.flatMap Stage.progress) (r.stages.flatMap Stage.complaint)

/-- What is printed where no run follows from the arguments.  The help is no failure. -/
def Arguments.Stop.execution : Arguments.Stop → Execution
  | .help => { code := 0, stdout := helpText }
  | .error e => { code := 2, stderr := Execution.line e.message }

/-- Does what the arguments ask for.  `spelled` tells which configuration a text spells. -/
def execute {m : Type → Type} [Monad m] [FileAccess m] (arguments : List Text)
    (spelled : Text → Option Config := Config.ofText?) : m Execution := do
  match Arguments.read arguments with
  | .error stop => return stop.execution
  | .ok a =>
    match a.source with
    | none =>
      return { code := 1, stderr := Execution.line "No source file path provided".toList }
    | some source =>
      let destination := if a.dryRun then .dryRun else .file a.target
      match a.config with
      | none => return (← run {} source destination).execution a.dryRun
      | some path =>
        match ← loadConfig path spelled with
        | .error e => return .failure (e.chain path)
        | .ok c => return (← run c source destination).execution a.dryRun

end Swatch
