/-
Module: Swatch.Journal
Purpose: What a run records about its progress.
Main exports:
  Severity, Field, Entry, journal
-/
import Swatch.Pipeline

namespace Swatch

/-- How much an entry matters. -/
inductive Severity where
  | debug
  | info
  | warning
deriving DecidableEq, Repr, Inhabited

/-- A recorded value. -/
inductive Field where
  | number (n : Nat)
  | text (t : Text)
deriving DecidableEq, Repr, Inhabited

/-- An entry of the journal: a phase that starts, or an event in it, with named values. -/
structure Entry where
  startsPhase : Bool
  name : String
  severity : Severity
  fields : List (String × Field)
deriving DecidableEq, Repr, Inhabited

namespace Entry

/-- A phase that starts. -/
def phase (name : String) (fields : List (String × Field)) : Entry :=
  ⟨true, name, .info, fields⟩

/-- An event. -/
def event (severity : Severity) (name : String) (fields : List (String × Field)) : Entry :=
  ⟨false, name, severity, fields⟩

end Entry

/-- The literals that denote no colour, each time they are met. -/
def rejections (resolve : Resolver) (tokens : List Text) : List (Text × ColorError) :=
  tokens.filterMap fun token =>
    match resolve token with
    | .ok _ => none
    | .error e => some (token, e)

/-- What a deduplication records, with settings that were found valid. -/
def reportEntries (s : VariableSettings) (resolve : Resolver) (r : Report) : List Entry :=
  [.phase "dedup.deduplicate" [("prefix", .text s.stem)],
    .event .info "extract_complete" [("tokens", .number r.tokens.length)]] ++
  (rejections resolve r.tokens).map (fun (token, e) =>
    .event .warning "color_rejected" [("token", .text token), ("error", .text e.message)]) ++
  r.grouping.groups.map (fun g =>
    .event .debug "color_group_created"
      [("var", .text g.name), ("key", .text g.color.text), ("tokens", .text g.provenance)]) ++
  [.event .info "substitution_complete" [("substituted", .number r.substituted)],
    .event .info "dedup_complete"
      [("tokens", .number r.tokens.length), ("groups", .number r.grouping.groups.length),
        ("rejected", .number r.grouping.rejected.length),
        ("substituted", .number r.substituted)]]

/-- What is recorded after formatting: the stages up to the first that fails. -/
def formattedEntries (c : Config) (resolve : Resolver) (formatted : Text) : List Entry :=
  match parse c.format.normalizeCommas formatted with
  | .error _ => []
  | .ok nodes =>
    match deduplicate c.naming resolve nodes with
    | .error _ => []
    | .ok r => reportEntries c.naming resolve r

/-- What is recorded about the result. -/
def resultEntry : Except PipelineError Outcome → Entry
  | .ok out =>
    .event .info "pipeline_success"
      [("groups", .number out.grouping.groups.length),
        ("rejected", .number out.grouping.rejected.length),
        ("substituted", .number out.substituted)]
  | .error e => .event .warning "pipeline_failure" [("error", .text e.message)]

/-- All that a run over a source records, in order. -/
def journal (c : Config) (resolve : Resolver) (source : Text) : List Entry :=
  let stages :=
    match formatSource c source with
    | .error _ => []
    | .ok formatted =>
      .event .info "format_complete"
        [("input_len", .number (utf8Length source)),
          ("formatted_len", .number (utf8Length formatted))] ::
        formattedEntries c resolve formatted
  .phase "colorvars.process" [("input_len", .number (utf8Length source))] :: stages ++
    [resultEntry (process c resolve source)]

end Swatch
