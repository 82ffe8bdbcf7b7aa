/-
Module: Swatch.Pipeline
Purpose: From a source text to a style sheet with variables for its colours.
Main exports:
  PipelineError, PipelineError.message, Outcome, formatSource, processFormatted, process
-/
import Swatch.Color.Resolve
import Swatch.Config
import Swatch.Sheet.Edit
import Swatch.Variables.Substitute

namespace Swatch

/-- Why a run ends without a result. -/
inductive PipelineError where
  | stylesheet (error : SheetError)
  | naming (problem : VariableProblem)
  | read (path : Text) (error : FileError)
  | targetExists (path : Text)
  | write (path : Text) (error : FileError)
deriving DecidableEq, Repr, Inhabited

namespace PipelineError

/-- The cause of the error in words, where it has one of its own. -/
def cause : PipelineError → Option Text
  | .stylesheet error => some error.message
  | .naming problem => some problem.message
  | .read _ error => some error.message
  | .targetExists _ => none
  | .write _ error => some error.message

/-- The error in words, the cause included. -/
def message : PipelineError → Text
  | .stylesheet error => "stylesheet failure: ".toList ++ error.message
  | .naming problem => "deduplication failure: ".toList ++ problem.message
  | .read path error => "failed to read ".toList ++ path ++ ": ".toList ++ error.message
  | .targetExists path => "output file already exists: ".toList ++ path
  | .write path error => "failed to write ".toList ++ path ++ ": ".toList ++ error.message

end PipelineError

/-- The result of a run. -/
structure Outcome where
  /-- The rule with the variables, and the style sheet that uses them. -/
  css : Text
  grouping : Grouping
  /-- How many distinct literals the style sheet has. -/
  tokenCount : Nat
  /-- How many declarations were replaced. -/
  substituted : Nat
deriving DecidableEq, Repr, Inhabited

/-- The source in the layout of the configuration. -/
def formatSource (c : Config) (source : Text) : Except PipelineError Text :=
  (format c.format source).mapError .stylesheet

/-- What a deduplicated style sheet amounts to. -/
def Outcome.ofReport (c : Config) (r : Report) : Outcome where
  css := assemble c.naming c.format r.grouping.groups r.nodes
  grouping := r.grouping
  tokenCount := r.tokens.length
  substituted := r.substituted

/-- Reads text that is in its layout already and puts variables for its colours. -/
def processFormatted (c : Config) (resolve : Resolver) (formatted : Text) :
    Except PipelineError Outcome := do
  let nodes ← (parse c.format.normalizeCommas formatted).mapError .stylesheet
  let report ← (deduplicate c.naming resolve nodes).mapError .naming
  return .ofReport c report

/-- Formats a source, reads the result and puts variables for its colours. -/
def process (c : Config) (resolve : Resolver) (source : Text) :
    Except PipelineError Outcome := do
  let formatted ← formatSource c source
  processFormatted c resolve formatted

end Swatch
