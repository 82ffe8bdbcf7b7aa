/-
Module: Swatch.Run
Purpose: Runs over files.
Main exports:
  readSource, writeOutput, loadConfig, Stage, Destination, Summary, RunReport, run
-/
import Swatch.Files.Tree
import Swatch.Pipeline

namespace Swatch

variable {m : Type → Type} [Monad m] [FileAccess m]

/-- Reads a source style sheet. -/
def readSource (path : Text) : m (Except PipelineError Text) := do
  return (← FileAccess.read path).mapError (.read path)

/-- Writes a result to a new file.  What the path leads to already is never touched. -/
def writeOutput (path css : Text) : m (Except PipelineError Unit) := do
  match ← FileAccess.create path css with
  | .ok () => return .ok ()
  | .error .exists => return .error (.targetExists path)
  | .error e => return .error (.write path e)

/-- Reads a configuration from a file.  `spelled` tells which one a text spells. -/
def loadConfig (path : Text) (spelled : Text → Option Config := Config.ofText?) :
    m (Except ConfigError Config) := do
  match ← FileAccess.read path with
  | .ok text => return Config.read text spelled
  | .error e => return .error (.unreadable e)

/-- A point that a run has reached. -/
inductive Stage where
  | formatting
  | formatted
  /-- A literal denotes no colour; the run goes on. -/
  | rejected (error : ColorError)
  | written (path : Text)
deriving DecidableEq, Repr, Inhabited

/-- Where the result goes: to a file, by default beside the source, or nowhere. -/
inductive Destination where
  | file (target : Option Text)
  | dryRun
deriving DecidableEq, Repr, Inhabited

/-- The result of a run over files. -/
structure Summary where
  /-- The file that was written. -/
  target : Option Text
  outcome : Outcome
deriving DecidableEq, Repr, Inhabited

/-- The points that a run reached, in order, and how it ended. -/
structure RunReport where
  stages : List Stage
  result : Except PipelineError Summary

/-- The points that are reached before anything is written. -/
def stagesOf (c : Config) (source : Text) : List Stage :=
  match formatSource c source with
  | .error _ => [.formatting]
  | .ok formatted =>
    match processFormatted c canonicalize formatted with
    | .error _ => [.formatting, .formatted]
    | .ok out => [.formatting, .formatted] ++ out.grouping.rejected.map .rejected

/-- Reads a source, processes it and writes the result. -/
def run (c : Config) (path : Text) (destination : Destination) : m RunReport := do
  match ← readSource path with
  | .error e => return ⟨[], .error e⟩
  | .ok source =>
    let stages := stagesOf c source
    match process c canonicalize source with
    | .error e => return ⟨stages, .error e⟩
    | .ok outcome =>
      match destination with
      | .dryRun => return ⟨stages, .ok ⟨none, outcome⟩⟩
      | .file target =>
        let target := target.getD (defaultTarget path)
        match ← writeOutput target outcome.css with
        | .error e => return ⟨stages, .error e⟩
        | .ok () =>
          return ⟨stages ++ [.written target], .ok ⟨some target, outcome⟩⟩

end Swatch
