/-
Module: Swatch.Proofs.Operations
Purpose: Sequences of runs over files: an operation creates one new file or nothing, and no file
  that is there ever changes.
Main exports:
  Operation, Operation.next, Conduct, conduct_operation, extends_after, operations_keep_files
-/
import Swatch.Command.Execute
import Swatch.Proofs.CommandLine
import Swatch.Proofs.Outcome
import Swatch.Proofs.Places

namespace Swatch

/-!
### Access to a tree of files

What the parts of a run do when a tree of files is passed along.
-/

section Access

variable (t : FileTree)

theorem run_readSource (path : Text) :
    (readSource path : StateM FileTree _).run t = ((t.read path).mapError (.read path), t) := rfl

/-- Why a file could not be written. -/
def writeError (path : Text) : FileError → PipelineError
  | .exists => .targetExists path
  | e => .write path e

theorem run_read (path : Text) :
    (FileAccess.read path : StateM FileTree _).run t = (t.read path, t) := rfl

theorem run_create (path text : Text) :
    (FileAccess.create path text : StateM FileTree _).run t =
      match t.create path text with
      | .ok t' => (.ok (), t')
      | .error e => (.error e, t) := by
  have unfolded : (FileAccess.create path text : StateM FileTree _).run t =
      (match t.create path text with
      | .ok t' => do
        set t'
        return .ok ()
      | .error e => return .error e : StateM FileTree (Except FileError Unit)).run t := rfl
  rw [unfolded]
  cases t.create path text with
  | ok t' => rfl
  | error e => rfl

theorem run_writeOutput (path css : Text) :
    (writeOutput path css : StateM FileTree _).run t =
      match t.create path css with
      | .ok t' => (.ok (), t')
      | .error e => (.error (writeError path e), t) := by
  rw [writeOutput, StateT.run_bind, run_create]
  cases t.create path css with
  | ok t' => rfl
  | error e => cases e <;> rfl

/-- The configuration in a file. -/
def FileTree.config (t : FileTree) (spelled : Text → Option Config) (path : Text) :
    Except ConfigError Config :=
  match t.read path with
  | .ok text => Config.read text spelled
  | .error e => .error (.unreadable e)

theorem run_loadConfig (spelled : Text → Option Config) (path : Text) :
    (loadConfig path spelled : StateM FileTree _).run t = (t.config spelled path, t) := by
  rw [loadConfig, StateT.run_bind, run_read, FileTree.config]
  cases t.read path with
  | ok text => rfl
  | error e => rfl

section Run

variable {t} {c : Config} {source text : Text} {outcome : Outcome}

theorem run_unreadable {e : FileError} (reads : t.read source = .error e)
    (destination : Destination) :
    (run c source destination : StateM FileTree _).run t = (⟨[], .error (.read source e)⟩, t) := by
  rw [run, StateT.run_bind, run_readSource, reads]
  rfl

/-- What is left of a run when the source has been read. -/
theorem run_readable (reads : t.read source = .ok text) (destination : Destination) :
    (run c source destination : StateM FileTree _).run t =
      (match process c canonicalize text with
      | .error e => return ⟨stagesOf c text, .error e⟩
      | .ok outcome =>
        match destination with
        | .dryRun => return ⟨stagesOf c text, .ok ⟨none, outcome⟩⟩
        | .file target => do
          let path := target.getD (defaultTarget source)
          match ← writeOutput path outcome.css with
          | .error e => return ⟨stagesOf c text, .error e⟩
          | .ok () => return ⟨stagesOf c text ++ [.written path], .ok ⟨some path, outcome⟩⟩ :
        StateM FileTree RunReport).run t := by
  rw [run, StateT.run_bind, run_readSource, reads]
  rfl

theorem run_unprocessed {e : PipelineError} (reads : t.read source = .ok text)
    (processed : process c canonicalize text = .error e) (destination : Destination) :
    (run c source destination : StateM FileTree _).run t = (⟨stagesOf c text, .error e⟩, t) := by
  rw [run_readable reads, processed]
  rfl

theorem run_dry (reads : t.read source = .ok text)
    (processed : process c canonicalize text = .ok outcome) :
    (run c source .dryRun : StateM FileTree _).run t =
      (⟨stagesOf c text, .ok ⟨none, outcome⟩⟩, t) := by
  rw [run_readable reads, processed]
  rfl

theorem run_file (reads : t.read source = .ok text)
    (processed : process c canonicalize text = .ok outcome) {target : Option Text} {path : Text}
    (chosen : target.getD (defaultTarget source) = path) :
    (run c source (.file target) : StateM FileTree _).run t =
      match t.create path outcome.css with
      | .ok t' => (⟨stagesOf c text ++ [.written path], .ok ⟨some path, outcome⟩⟩, t')
      | .error e => (⟨stagesOf c text, .error (writeError path e)⟩, t) := by
  rw [run_readable reads, processed]
  dsimp only
  rw [chosen, StateT.run_bind, run_writeOutput]
  cases t.create path outcome.css with
  | ok t' => rfl
  | error e => rfl

end Run

end Access

/-!
### Operations

Which configuration a text spells is left open throughout: whatever it is, no file is changed.
-/

/-- What can be done to a tree of files. -/
inductive Operation where
  | run (c : Config) (source : Text) (destination : Destination)
  | write (target css : Text)
  | command (arguments : List Text)

/-- What an operation answers. -/
inductive Response where
  | run (report : RunReport)
  | write (result : Except PipelineError Unit)
  | command (execution : Execution)

namespace Operation

/-- Does what is asked for. -/
def perform (spelled : Text → Option Config) : Operation → StateM FileTree Response
  | run c source destination => Response.run <$> Swatch.run c source destination
  | write target css => Response.write <$> writeOutput target css
  | command arguments => Response.command <$> execute arguments spelled

/-- The answer. -/
def answer (spelled : Text → Option Config) (o : Operation) (t : FileTree) : Response :=
  ((o.perform spelled).run t).1

/-- The files when the operation is done. -/
def next (spelled : Text → Option Config) (t : FileTree) (o : Operation) : FileTree :=
  ((o.perform spelled).run t).2

/-- The operation that shows its result and does not write it. -/
def dry? : Operation → Option Operation
  | run c source _ => some (run c source .dryRun)
  | write _ _ => none
  | command arguments => some (command (Arguments.dryRunName :: arguments))

end Operation

/-- The files after a sequence of operations. -/
def after (spelled : Text → Option Config) (t : FileTree) (operations : List Operation) :
    FileTree :=
  operations.foldl (Operation.next spelled) t

namespace Operation

/-- An operation that is not to write anything. -/
def IsDry : Operation → Prop
  | run _ _ destination => destination = .dryRun
  | write _ _ => False
  | command arguments => ∃ a, Arguments.read arguments = .ok a ∧ a.dryRun = true

/-- A command for the help. -/
def AsksForHelp : Operation → Prop
  | command arguments => Arguments.AsksForHelp arguments
  | _ => False

end Operation

/-- An answer that is an error. -/
def Response.IsError : Response → Prop
  | run report => ∃ e, report.result = .error e
  | write result => ∃ e, result = .error e
  | command execution => execution.code ≠ 0

/-- The style sheet that a dry run shows: a command prints it. -/
def Response.shown? : Response → Option Text
  | run report =>
    match report.result with
    | .ok summary => if summary.target.isNone then some summary.outcome.css else none
    | .error _ => none
  | write _ => none
  | command execution => if execution.code = 0 then some execution.stdout else none

/-!
### What an operation does
-/

/-- A source that can be read, and what comes of its text. -/
structure Yields (t : FileTree) (c : Config) (source text : Text) (outcome : Outcome) : Prop where
  read : t.read source = .ok text
  processed : process c canonicalize text = .ok outcome

/-- The result of a source in a new file. -/
structure Publishes (t t' : FileTree) (c : Config) (source : Text) (target : Option Text)
    (text : Text) (outcome : Outcome) : Prop where
  yields : Yields t c source text outcome
  created : t.Gains t' (target.getD (defaultTarget source)) outcome.css
  /-- Where no target is given, the file is in the directory of the source. -/
  beside : target = none → ∃ directory name, t.Leads source (directory ++ [name]) ∧
    t'.find? (directory ++ [defaultName]) = some (.file (.text outcome.css))

/-- The configuration that arguments ask for. -/
def FileTree.configured (t : FileTree) (spelled : Text → Option Config) :
    Option Text → Except ConfigError Config
  | none => .ok {}
  | some path => t.config spelled path

/-- Arguments that ask for a run. -/
structure Asks (spelled : Text → Option Config) (t : FileTree) (arguments : List Text)
    (a : Arguments) (c : Config) (source : Text) : Prop where
  read : Arguments.read arguments = .ok a
  source : a.source = some source
  config : t.configured spelled a.config = .ok c

/-- How an operation can turn out: with one new file that holds the result, or with the files
as they were.  In the second case there is an error, except for dry runs and for the help. -/
inductive Conduct (spelled : Text → Option Config) (t : FileTree) :
    Operation → Response → FileTree → Prop where
  /-- The result is in a new file, and to have written it is the last stage. -/
  | published {c : Config} {source text : Text} {target : Option Text} {outcome : Outcome}
      {t' : FileTree} (publishes : Publishes t t' c source target text outcome)
      (unwritten : ∀ path, .written path ∉ stagesOf c text) :
      Conduct spelled t (.run c source (.file target))
        (.run ⟨stagesOf c text ++ [.written (target.getD (defaultTarget source))],
          .ok ⟨some (target.getD (defaultTarget source)), outcome⟩⟩) t'
  /-- There is no result, or its place is taken or cannot be reached. -/
  | unpublished {c : Config} {source : Text} {target : Option Text} {stages : List Stage}
      {e : PipelineError} (unwritten : ∀ path, .written path ∉ stages)
      (reason : ¬∃ text outcome, Yields t c source text outcome ∧
        t.Free (target.getD (defaultTarget source))) :
      Conduct spelled t (.run c source (.file target)) (.run ⟨stages, .error e⟩) t
  /-- A dry run has a result. -/
  | shown {c : Config} {source text : Text} {outcome : Outcome}
      (yields : Yields t c source text outcome)
      (unwritten : ∀ path, .written path ∉ stagesOf c text) :
      Conduct spelled t (.run c source .dryRun) (.run ⟨stagesOf c text, .ok ⟨none, outcome⟩⟩) t
  /-- A dry run has none. -/
  | unshown {c : Config} {source : Text} {stages : List Stage} {e : PipelineError}
      (unwritten : ∀ path, .written path ∉ stages)
      (reason : ¬∃ text outcome, Yields t c source text outcome) :
      Conduct spelled t (.run c source .dryRun) (.run ⟨stages, .error e⟩) t
  | written {target css : Text} {t' : FileTree} (created : t.Gains t' target css) :
      Conduct spelled t (.write target css) (.write (.ok ())) t'
  | refused {target css : Text} {e : PipelineError} (reason : ¬t.Free target) :
      Conduct spelled t (.write target css) (.write (.error e)) t
  /-- The command has written its result. -/
  | commanded {arguments : List Text} {a : Arguments} {c : Config} {source text : Text}
      {outcome : Outcome} {t' : FileTree} {stdout stderr : Text}
      (asks : Asks spelled t arguments a c source) (wet : a.dryRun = false)
      (publishes : Publishes t t' c source a.target text outcome) :
      Conduct spelled t (.command arguments) (.command ⟨0, stdout, stderr⟩) t'
  /-- The command prints the result of a dry run, and nothing else on its standard output. -/
  | printed {arguments : List Text} {a : Arguments} {c : Config} {source text : Text}
      {outcome : Outcome} {stderr : Text} (asks : Asks spelled t arguments a c source)
      (dry : a.dryRun = true) (yields : Yields t c source text outcome) :
      Conduct spelled t (.command arguments) (.command ⟨0, outcome.css, stderr⟩) t
  /-- The command prints the help. -/
  | helped {arguments : List Text} (asked : Arguments.AsksForHelp arguments) :
      Conduct spelled t (.command arguments) (.command ⟨0, helpText, []⟩) t
  /-- The command fails: the arguments ask for no run, or the run fails. -/
  | failed {arguments : List Text} {execution : Execution} (code : execution.code ≠ 0)
      (reason : ¬∃ a c source text outcome, Asks spelled t arguments a c source ∧
        Yields t c source text outcome ∧
        (a.dryRun = true ∨ t.Free (a.target.getD (defaultTarget source)))) :
      Conduct spelled t (.command arguments) (.command execution) t

section Steps

variable {spelled : Text → Option Config} {t : FileTree} {c : Config} {source text : Text}
  {outcome : Outcome}

theorem written_notMem_stagesOf (c : Config) (text path : Text) :
    .written path ∉ stagesOf c text := by
  unfold stagesOf
  split
  next => simp
  next formatted _ =>
    split
    next => simp
    next => simp

/-- A source whose result is written. -/
theorem Yields.publishes (yields : Yields t c source text outcome) {target : Option Text}
    {t' : FileTree} (created : t.Gains t' (target.getD (defaultTarget source)) outcome.css) :
    Publishes t t' c source target text outcome where
  yields
  created
  beside := by
    rintro rfl
    obtain ⟨place, leads, -, now⟩ := created
    obtain ⟨file, source, -⟩ := FileTree.read_eq_ok.mp yields.read
    obtain ⟨front, name, directory, parts, names, walked, rfl⟩ := id source
    obtain rfl := leads.unique (FileTree.leads_defaultTarget source)
    exact ⟨directory, name, source, by rw [now, if_pos rfl]⟩

/-- Either the source yields a result, or the run ends with an error and leaves everything as it
is. -/
theorem run_cases (t : FileTree) (c : Config) (source : Text) (destination : Destination) :
    (∃ text outcome, Yields t c source text outcome) ∨
      (¬∃ text outcome, Yields t c source text outcome) ∧
        ∃ stages e, (∀ path, .written path ∉ stages) ∧
          (run c source destination : StateM FileTree _).run t = (⟨stages, .error e⟩, t) := by
  cases reads : t.read source with
  | error e =>
      right
      refine ⟨?_, [], .read source e, nofun, run_unreadable reads destination⟩
      rintro ⟨text, outcome, yields⟩
      rw [yields.read] at reads
      cases reads
  | ok text =>
      cases processed : process c canonicalize text with
      | error e =>
          right
          refine ⟨?_, _, e, written_notMem_stagesOf c text,
            run_unprocessed reads processed destination⟩
          rintro ⟨text', outcome, yields⟩
          obtain rfl := Except.ok.inj (yields.read.symm.trans reads)
          rw [yields.processed] at processed
          cases processed
      | ok outcome => exact Or.inl ⟨text, outcome, reads, processed⟩

theorem conduct_run (t : FileTree) (c : Config) (source : Text) (destination : Destination) :
    Conduct spelled t (.run c source destination)
      ((Operation.run c source destination).answer spelled t)
      ((Operation.run c source destination).next spelled t) := by
  have answer : (Operation.run c source destination).answer spelled t =
      .run ((run c source destination : StateM FileTree _).run t).1 := rfl
  have next : (Operation.run c source destination).next spelled t =
      ((run c source destination : StateM FileTree _).run t).2 := rfl
  rw [answer, next]
  rcases run_cases t c source destination with
    ⟨text, outcome, yields⟩ | ⟨none, stages, e, unwritten, ends⟩
  · have unwritten := written_notMem_stagesOf c text
    cases destination with
    | dryRun =>
        rw [run_dry yields.read yields.processed]
        exact .shown yields unwritten
    | file target =>
        rw [run_file yields.read yields.processed rfl]
        cases created : t.create (target.getD (defaultTarget source)) outcome.css with
        | ok t' => exact .published (yields.publishes (FileTree.create_gains created)) unwritten
        | error e =>
            refine .unpublished unwritten ?_
            rintro ⟨text', outcome', -, free⟩
            exact FileTree.not_free_of_error created free
  · rw [ends]
    cases destination with
    | dryRun => exact .unshown unwritten none
    | file target =>
        refine .unpublished unwritten ?_
        rintro ⟨text, outcome, yields, -⟩
        exact none ⟨text, outcome, yields⟩

theorem conduct_write (t : FileTree) (target css : Text) :
    Conduct spelled t (.write target css) ((Operation.write target css).answer spelled t)
      ((Operation.write target css).next spelled t) := by
  have answer : (Operation.write target css).answer spelled t =
      .write ((writeOutput target css : StateM FileTree _).run t).1 := rfl
  have next : (Operation.write target css).next spelled t =
      ((writeOutput target css : StateM FileTree _).run t).2 := rfl
  rw [answer, next, run_writeOutput]
  cases created : t.create target css with
  | ok t' => exact .written (FileTree.create_gains created)
  | error e => exact .refused (FileTree.not_free_of_error created)

/-- Arguments that ask for a run do what the run does, and print its report. -/
theorem execute_of_asks {arguments : List Text} {a : Arguments}
    (asks : Asks spelled t arguments a c source) :
    (execute arguments spelled : StateM FileTree _).run t =
      let done := (run c source (if a.dryRun then .dryRun else .file a.target) :
        StateM FileTree _).run t
      (done.1.execution a.dryRun, done.2) := by
  obtain ⟨read, from_, config⟩ := asks
  unfold execute
  rw [read]
  dsimp only
  rw [from_]
  dsimp only
  cases configured : a.config with
  | none =>
      rw [configured] at config
      obtain rfl := Except.ok.inj config
      rfl
  | some path =>
      rw [configured] at config
      have loaded : t.config spelled path = .ok c := config
      dsimp only
      rw [StateT.run_bind, run_loadConfig, loaded]
      rfl

theorem execute_of_help {arguments : List Text} (asked : Arguments.read arguments = .error .help) :
    (execute arguments spelled : StateM FileTree _).run t = (⟨0, helpText, []⟩, t) := by
  unfold execute
  rw [asked]
  rfl

/-- Other arguments end in an error. -/
theorem execute_of_not_asks {arguments : List Text}
    (helpless : Arguments.read arguments ≠ .error .help)
    (none : ¬∃ a c source, Asks spelled t arguments a c source) :
    ∃ e : Execution, e.code ≠ 0 ∧
      (execute arguments spelled : StateM FileTree _).run t = (e, t) := by
  unfold execute
  cases read : Arguments.read arguments with
  | error stop =>
      cases stop with
      | help => exact absurd read helpless
      | error e => exact ⟨_, Nat.succ_ne_zero 1, rfl⟩
  | ok a =>
      dsimp only
      cases from_ : a.source with
      | none => exact ⟨_, Nat.succ_ne_zero 0, rfl⟩
      | some source =>
          dsimp only
          cases configured : a.config with
          | none => exact absurd ⟨a, {}, source, read, from_, by rw [configured]; rfl⟩ none
          | some path =>
              dsimp only
              rw [StateT.run_bind, run_loadConfig]
              cases loaded : t.config spelled path with
              | ok c =>
                  exact absurd ⟨a, c, source, read, from_, by rw [configured]; exact loaded⟩ none
              | error e => exact ⟨_, Nat.succ_ne_zero 0, rfl⟩

theorem Asks.unique {arguments : List Text} {a a' : Arguments} {c' : Config} {source' : Text}
    (asks : Asks spelled t arguments a c source) (again : Asks spelled t arguments a' c' source') :
    a' = a ∧ c' = c ∧ source' = source := by
  obtain rfl := Except.ok.inj (again.read.symm.trans asks.read)
  exact ⟨rfl, Except.ok.inj (again.config.symm.trans asks.config),
    Option.some.inj (again.source.symm.trans asks.source)⟩

theorem conduct_command (t : FileTree) (arguments : List Text) :
    Conduct spelled t (.command arguments) ((Operation.command arguments).answer spelled t)
      ((Operation.command arguments).next spelled t) := by
  have answer : (Operation.command arguments).answer spelled t =
      .command ((execute arguments spelled : StateM FileTree _).run t).1 := rfl
  have next : (Operation.command arguments).next spelled t =
      ((execute arguments spelled : StateM FileTree _).run t).2 := rfl
  rw [answer, next]
  by_cases help : Arguments.read arguments = .error .help
  · rw [execute_of_help help]
    exact .helped (Arguments.read_eq_help_iff.mp help)
  by_cases asked : ∃ a c source, Asks spelled t arguments a c source
  · obtain ⟨a, c, source, asks⟩ := asked
    rw [execute_of_asks asks]
    rcases run_cases t c source (if a.dryRun then .dryRun else .file a.target) with
      ⟨text, outcome, yields⟩ | ⟨none, stages, e, unwritten, ends⟩
    · cases dry : a.dryRun with
      | true =>
          rw [if_pos rfl, run_dry yields.read yields.processed]
          exact .printed asks dry yields
      | false =>
          rw [if_neg Bool.false_ne_true, run_file yields.read yields.processed rfl]
          cases created : t.create (a.target.getD (defaultTarget source)) outcome.css with
          | ok t' =>
              exact .commanded asks dry (yields.publishes (FileTree.create_gains created))
          | error e =>
              refine .failed (Nat.succ_ne_zero 0) ?_
              rintro ⟨a', c', source', text', outcome', asks', -, allowed⟩
              obtain ⟨rfl, rfl, rfl⟩ := asks.unique asks'
              rcases allowed with wet | free
              · rw [wet] at dry
                cases dry
              · exact FileTree.not_free_of_error created free
    · rw [ends]
      have code : (RunReport.execution a.dryRun ⟨stages, .error e⟩).code ≠ 0 := by
        cases a.dryRun with
        | true => exact Nat.succ_ne_zero 0
        | false => exact Nat.succ_ne_zero 0
      refine .failed code ?_
      rintro ⟨a', c', source', text', outcome', asks', yields, -⟩
      obtain ⟨rfl, rfl, rfl⟩ := asks.unique asks'
      exact none ⟨text', outcome', yields⟩
  · obtain ⟨e, code, ends⟩ := execute_of_not_asks help asked
    rw [ends]
    refine .failed code ?_
    rintro ⟨a, c, source, -, -, asks, -⟩
    exact asked ⟨a, c, source, asks⟩

/-- Every operation turns out in one of these ways. -/
theorem conduct_operation (t : FileTree) (o : Operation) :
    Conduct spelled t o (o.answer spelled t) (o.next spelled t) := by
  cases o with
  | run c source destination => exact conduct_run t c source destination
  | write target css => exact conduct_write t target css
  | command arguments => exact conduct_command t arguments

end Steps

/-!
### Sequences of operations
-/

section Sequences

variable {spelled : Text → Option Config}

/-- An operation keeps what is there. -/
theorem Conduct.keeps {t t' : FileTree} {o : Operation} {response : Response}
    (conduct : Conduct spelled t o response t') : t.Extends t' := by
  cases conduct with
  | published publishes unwritten => exact publishes.created.keeps
  | unpublished unwritten reason => exact .refl t
  | shown yields unwritten => exact .refl t
  | unshown unwritten reason => exact .refl t
  | written created => exact created.keeps
  | refused reason => exact .refl t
  | commanded asks wet publishes => exact publishes.created.keeps
  | printed asks dry yields => exact .refl t
  | helped asked => exact .refl t
  | failed code reason => exact .refl t

/-- An operation that creates nothing ends in an error, but for dry runs and the help. -/
theorem Conduct.creates_or_fails {t t' : FileTree} {o : Operation} {response : Response}
    (conduct : Conduct spelled t o response t') :
    (∃ path css, t.Gains t' path css) ∨
      t' = t ∧ (response.IsError ∨ o.IsDry ∨ o.AsksForHelp) := by
  cases conduct with
  | published publishes unwritten => exact Or.inl ⟨_, _, publishes.created⟩
  | written created => exact Or.inl ⟨_, _, created⟩
  | commanded asks wet publishes => exact Or.inl ⟨_, _, publishes.created⟩
  | unpublished unwritten reason => exact Or.inr ⟨rfl, Or.inl ⟨_, rfl⟩⟩
  | unshown unwritten reason => exact Or.inr ⟨rfl, Or.inl ⟨_, rfl⟩⟩
  | refused reason => exact Or.inr ⟨rfl, Or.inl ⟨_, rfl⟩⟩
  | failed code reason => exact Or.inr ⟨rfl, Or.inl code⟩
  | shown yields unwritten => exact Or.inr ⟨rfl, Or.inr (Or.inl rfl)⟩
  | printed asks dry yields => exact Or.inr ⟨rfl, Or.inr (Or.inl ⟨_, asks.read, dry⟩)⟩
  | helped asked => exact Or.inr ⟨rfl, Or.inr (Or.inr asked)⟩

/-- A sequence of operations keeps what is there. -/
theorem extends_after (spelled : Text → Option Config) (t : FileTree)
    (operations : List Operation) : t.Extends (after spelled t operations) := by
  induction operations generalizing t with
  | nil => exact .refl t
  | cons o rest ih => exact (conduct_operation t o).keeps.trans (ih (o.next spelled t))

/-!
### Dry runs
-/

theorem FileTree.Extends.yields {t t' : FileTree} {c : Config} {source text : Text}
    {outcome : Outcome} (keeps : t.Extends t') (yields : Yields t c source text outcome) :
    Yields t' c source text outcome :=
  ⟨keeps.read yields.read, yields.processed⟩

theorem FileTree.Extends.configured {t t' : FileTree} {c : Config} {path : Option Text}
    (keeps : t.Extends t') (configured : t.configured spelled path = .ok c) :
    t'.configured spelled path = .ok c := by
  cases path with
  | none => exact configured
  | some path =>
      have loaded : t.config spelled path = .ok c := configured
      show t'.config spelled path = .ok c
      unfold FileTree.config at loaded ⊢
      cases reads : t.read path with
      | error e =>
          rw [reads] at loaded
          cases loaded
      | ok text =>
          rw [reads] at loaded
          rw [keeps.read reads]
          exact loaded

theorem shown?_run {t : FileTree} {c : Config} {source text : Text} {outcome : Outcome}
    (yields : Yields t c source text outcome) :
    ((Operation.run c source .dryRun).answer spelled t).shown? = some outcome.css := by
  have answer : (Operation.run c source .dryRun).answer spelled t =
      .run ((run c source .dryRun : StateM FileTree _).run t).1 := rfl
  rw [answer, run_dry yields.read yields.processed]
  rfl

theorem shown?_command {t : FileTree} {arguments : List Text} {a : Arguments} {c : Config}
    {source text : Text} {outcome : Outcome} (asks : Asks spelled t arguments a c source)
    (dry : a.dryRun = true) (yields : Yields t c source text outcome) :
    ((Operation.command arguments).answer spelled t).shown? = some outcome.css := by
  have answer : (Operation.command arguments).answer spelled t =
      .command ((execute arguments spelled : StateM FileTree _).run t).1 := rfl
  rw [answer, execute_of_asks asks, dry, if_pos rfl, run_dry yields.read yields.processed]
  rfl

/-- What an operation writes, its dry run shows, then and at any later time. -/
theorem shown?_of_created {t t' : FileTree} {o dry : Operation} {response : Response}
    (conduct : Conduct spelled t o response t') (counterpart : o.dry? = some dry) {path css : Text}
    (created : t.Gains t' path css) {now : FileTree} (keeps : t.Extends now) :
    (dry.answer spelled now).shown? = some css := by
  cases conduct with
  | published publishes unwritten =>
      obtain rfl := Option.some.inj counterpart
      obtain rfl := created.unique publishes.created
      exact shown?_run (keeps.yields publishes.yields)
  | commanded asks wet publishes =>
      obtain rfl := Option.some.inj counterpart
      obtain rfl := created.unique publishes.created
      have dried : Asks spelled now _ _ _ _ :=
        ⟨Arguments.read_dryRun asks.read wet, asks.source, keeps.configured asks.config⟩
      exact shown?_command dried rfl (keeps.yields publishes.yields)
  | written created => cases counterpart
  | unpublished unwritten reason => exact absurd created FileTree.not_gains_self
  | shown yields unwritten => exact absurd created FileTree.not_gains_self
  | unshown unwritten reason => exact absurd created FileTree.not_gains_self
  | refused reason => exact absurd created FileTree.not_gains_self
  | printed asks dry yields => exact absurd created FileTree.not_gains_self
  | helped asked => exact absurd created FileTree.not_gains_self
  | failed code reason => exact absurd created FileTree.not_gains_self

end Sequences

/-!
### The result
-/

/-- No operation ever changes a file.  At every point of every sequence of operations, whatever the
texts of configurations spell: everything that is there then, and what can be read then, stays as it
is; the next operation creates exactly one new file, which holds its result, or leaves the files as
they are, and then it ends in an error unless it is a dry run or asks for the help; and a dry run,
at that point or later, shows the style sheet that the operation writes. -/
theorem operations_keep_files (spelled : Text → Option Config) (t : FileTree)
    (before : List Operation) :
    (∀ later, (after spelled t before).Extends (after spelled t (before ++ later)) ∧
      ∀ path text, (after spelled t before).read path = .ok text →
        (after spelled t (before ++ later)).read path = .ok text) ∧
    ∀ o : Operation,
      Conduct spelled (after spelled t before) o (o.answer spelled (after spelled t before))
        (after spelled t (before ++ [o])) ∧
      ((∃ path css,
          (after spelled t before).Gains (after spelled t (before ++ [o])) path css) ∨
        after spelled t (before ++ [o]) = after spelled t before ∧
          ((o.answer spelled (after spelled t before)).IsError ∨ o.IsDry ∨ o.AsksForHelp)) ∧
      ∀ dry, o.dry? = some dry → ∀ path css,
        (after spelled t before).Gains (after spelled t (before ++ [o])) path css →
          ∀ later, (dry.answer spelled (after spelled t (before ++ later))).shown? = some css := by
  have joint (later : List Operation) :
      after spelled t (before ++ later) = after spelled (after spelled t before) later :=
    List.foldl_append
  have keeps (later : List Operation) :
      (after spelled t before).Extends (after spelled t (before ++ later)) := by
    rw [joint]
    exact extends_after spelled _ later
  refine ⟨fun later => ⟨keeps later, fun path text => (keeps later).read⟩, fun o => ?_⟩
  have conduct : Conduct spelled (after spelled t before) o
      (o.answer spelled (after spelled t before)) (after spelled t (before ++ [o])) := by
    rw [joint]
    exact conduct_operation _ o
  exact ⟨conduct, conduct.creates_or_fails, fun dry counterpart path css created later =>
    shown?_of_created conduct counterpart created (keeps later)⟩

/-- One style sheet and nothing beside it. -/
def oneSheet : FileTree :=
  ⟨[(["a.css".toList], .file (.text "a\x7bcolor:#fff\x7d".toList))]⟩

/-- The result is written beside the sheet; whatever is done, the sheet stays, and a dry run shows
the same result. -/
theorem operations_keep_files_oneSheet :
    ∃ css, oneSheet.Gains (after Config.ofText? oneSheet [.run {} "a.css".toList (.file none)])
        "output.css".toList css ∧
      ∀ later, (after Config.ofText? oneSheet later).read "a.css".toList =
          .ok "a\x7bcolor:#fff\x7d".toList ∧
        ((Operation.run {} "a.css".toList .dryRun).answer Config.ofText?
          (after Config.ofText? oneSheet later)).shown? = some css := by
  have source : oneSheet.read "a.css".toList = .ok "a\x7bcolor:#fff\x7d".toList := rfl
  obtain ⟨outcome, processed⟩ : ∃ outcome,
      process {} canonicalize "a\x7bcolor:#fff\x7d".toList = .ok outcome := by
    have ends : (process {} canonicalize "a\x7bcolor:#fff\x7d".toList).toOption.isSome = true := by
      decide +kernel
    obtain ⟨outcome, result⟩ := Option.isSome_iff_exists.mp ends
    exact ⟨outcome, toOption_eq_some.mp result⟩
  have free : oneSheet.Free "output.css".toList :=
    ⟨["output.css".toList], ⟨[], _, [], rfl, rfl, rfl, rfl⟩, by decide⟩
  obtain ⟨t', creates⟩ := (FileTree.create_isOk_iff outcome.css).mpr free
  have created : oneSheet.Gains
      (after Config.ofText? oneSheet [.run {} "a.css".toList (.file none)])
      "output.css".toList outcome.css := by
    have next : after Config.ofText? oneSheet [.run {} "a.css".toList (.file none)] =
        ((run {} "a.css".toList (.file none) : StateM FileTree _).run oneSheet).2 := rfl
    have chosen : (none : Option Text).getD (defaultTarget "a.css".toList) =
        "output.css".toList := by decide
    rw [next, run_file source processed chosen, creates]
    exact FileTree.create_gains creates
  obtain ⟨kept, acts⟩ := operations_keep_files Config.ofText? oneSheet []
  refine ⟨outcome.css, created, fun later => ⟨(kept later).2 _ _ source, ?_⟩⟩
  exact (acts (.run {} "a.css".toList (.file none))).2.2 _ rfl _ _ created later

/-- The help creates nothing, is no dry run and ends well. -/
theorem help_creates_nothing_and_succeeds :
    ¬∀ (t : FileTree) (o : Operation),
      (∃ path css, t.Gains (o.next Config.ofText? t) path css) ∨
        o.next Config.ofText? t = t ∧ ((o.answer Config.ofText? t).IsError ∨ o.IsDry) := by
  intro claimed
  have read : Arguments.read [Arguments.helpName] = .error .help := by decide
  have done : ((Operation.command [Arguments.helpName]).perform Config.ofText?).run oneSheet =
      (.command ⟨0, helpText, []⟩, oneSheet) := by
    have command : (execute [Arguments.helpName] Config.ofText? : StateM FileTree _).run oneSheet =
        (⟨0, helpText, []⟩, oneSheet) := execute_of_help read
    exact congrArg (fun ended => (Response.command ended.1, ended.2)) command
  have next := congrArg Prod.snd done
  have answer := congrArg Prod.fst done
  rcases claimed oneSheet (.command [Arguments.helpName]) with
    ⟨path, css, created⟩ | ⟨-, failed | ⟨a, ok, -⟩⟩
  · rw [Operation.next, next] at created
    exact FileTree.not_gains_self created
  · rw [Operation.answer, answer] at failed
    exact failed rfl
  · rw [read] at ok
    cases ok

end Swatch
