/-
Module: Swatch.Proofs.CommandLine
Purpose: Which arguments ask for the help, and what the flag for a dry run changes about others.
Main exports:
  Arguments.takeIn, Arguments.readFrom_cons, Arguments.takeIn_eq_ok, Arguments.AsksForHelp,
  Arguments.read_eq_help_iff, Arguments.read_dryRun
-/
import Swatch.Command.Arguments
import Swatch.Proofs.Outcome

namespace Swatch.Arguments

/-!
### One argument
-/

/-- Takes in one argument.  The answer is what is known then, the option whose value is missing,
and whether options have ended. -/
def takeIn (a : Arguments) (waiting : Option Valued) (ended : Bool) (s : Text) :
    Except Stop (Arguments × Option Valued × Bool) :=
  match waiting with
  | some option =>
    if kindOf s ≠ .path then .error (.error (.missingValue option.name))
    else ((a.addValue option s).mapError .error).map (·, none, false)
  | none =>
    if ended then ((a.addPath s).mapError .error).map (·, none, true)
    else
      match kindOf s with
      | .endOfOptions => .ok (a, none, true)
      | .path => ((a.addPath s).mapError .error).map (·, none, false)
      | .dryRun =>
        if a.dryRun then .error (.error (.repeated s))
        else .ok ({ a with dryRun := true }, none, false)
      | .help => .error .help
      | .needlessValue flag => .error (.error (.needlessValue flag))
      | .option option => .ok (a, some option, false)
      | .valued option value => ((a.addValue option value).mapError .error).map (·, none, false)
      | .unknown => .error (.error (.unexpected s))

/-- Arguments are taken in one by one. -/
theorem readFrom_cons (a : Arguments) (waiting : Option Valued) (ended : Bool) (s : Text)
    (rest : List Text) :
    readFrom a waiting ended (s :: rest) =
      a.takeIn waiting ended s >>= fun (a, waiting, ended) => readFrom a waiting ended rest := by
  rw [readFrom.eq_def, takeIn.eq_def]
  cases waiting with
  | some option =>
      dsimp only
      split
      next => rfl
      next =>
        cases a.addValue option s with
        | ok a => rfl
        | error e => rfl
  | none =>
      dsimp only
      split
      next =>
        cases a.addPath s with
        | ok a => rfl
        | error e => rfl
      next =>
        cases kindOf s with
        | endOfOptions => rfl
        | path =>
            dsimp only
            cases a.addPath s with
            | ok a => rfl
            | error e => rfl
        | dryRun =>
            dsimp only
            split
            next => rfl
            next => rfl
        | help => rfl
        | needlessValue flag => rfl
        | option option => rfl
        | valued option value =>
            dsimp only
            cases a.addValue option value with
            | ok a => rfl
            | error e => rfl
        | unknown => rfl

/-- How one argument is taken in when it makes sense. -/
inductive Takes (a : Arguments) (s : Text) :
    Option Valued → Bool → Arguments → Option Valued → Bool → Prop where
  | value {b : Arguments} {option : Valued} {ended : Bool} (kind : kindOf s = .path)
      (added : a.addValue option s = .ok b) : a.Takes s (some option) ended b none false
  | pathBehind {b : Arguments} (added : a.addPath s = .ok b) : a.Takes s none true b none true
  | endOfOptions (kind : kindOf s = .endOfOptions) : a.Takes s none false a none true
  | path {b : Arguments} (kind : kindOf s = .path) (added : a.addPath s = .ok b) :
      a.Takes s none false b none false
  | dryRun (kind : kindOf s = .dryRun) (first : a.dryRun = false) :
      a.Takes s none false { a with dryRun := true } none false
  | option {option : Valued} (kind : kindOf s = .option option) :
      a.Takes s none false a (some option) false
  | valued {b : Arguments} {option : Valued} {value : Text}
      (kind : kindOf s = .valued option value) (added : a.addValue option value = .ok b) :
      a.Takes s none false b none false

section Takes

variable {a b : Arguments} {waiting waiting' : Option Valued} {ended ended' : Bool} {s : Text}

/-- A step that goes on with what was added. -/
theorem map_added {x : Except ArgumentError Arguments} {after after' : Option Valued × Bool} :
    (x.mapError Stop.error).map (·, after) = .ok (b, after') ↔ x = .ok b ∧ after = after' := by
  rw [map_eq_ok]
  constructor
  · rintro ⟨c, added, same⟩
    cases same
    exact ⟨mapError_eq_ok.mp added, rfl⟩
  · rintro ⟨added, rfl⟩
    exact ⟨b, mapError_eq_ok.mpr added, rfl⟩

theorem takes_of_takeIn (taken : a.takeIn waiting ended s = .ok (b, waiting', ended')) :
    a.Takes s waiting ended b waiting' ended' := by
  unfold takeIn at taken
  cases waiting with
  | some option =>
      dsimp only at taken
      split at taken
      next => cases taken
      next isPath =>
        obtain ⟨added, same⟩ := map_added.mp taken
        cases same
        exact .value (Decidable.not_not.mp isPath) added
  | none =>
      cases ended with
      | true =>
          obtain ⟨added, same⟩ := map_added.mp taken
          cases same
          exact .pathBehind added
      | false =>
          dsimp only at taken
          rw [if_neg Bool.false_ne_true] at taken
          cases kind : kindOf s with
          | endOfOptions =>
              rw [kind] at taken
              cases taken
              exact .endOfOptions kind
          | path =>
              rw [kind] at taken
              obtain ⟨added, same⟩ := map_added.mp taken
              cases same
              exact .path kind added
          | dryRun =>
              rw [kind] at taken
              dsimp only at taken
              split at taken
              next => cases taken
              next first =>
                cases taken
                exact .dryRun kind (eq_false_of_ne_true first)
          | option option =>
              rw [kind] at taken
              cases taken
              exact .option kind
          | valued option value =>
              rw [kind] at taken
              obtain ⟨added, same⟩ := map_added.mp taken
              cases same
              exact .valued kind added
          | help =>
              rw [kind] at taken
              cases taken
          | needlessValue flag =>
              rw [kind] at taken
              cases taken
          | unknown =>
              rw [kind] at taken
              cases taken

/-- An argument is taken in in one of these ways. -/
theorem takeIn_eq_ok :
    a.takeIn waiting ended s = .ok (b, waiting', ended') ↔
      a.Takes s waiting ended b waiting' ended' := by
  refine ⟨takes_of_takeIn, fun takes => ?_⟩
  unfold takeIn
  cases takes with
  | value kind added => simpa [kind] using map_added.mpr ⟨added, rfl⟩
  | pathBehind added => exact map_added.mpr ⟨added, rfl⟩
  | endOfOptions kind => simp [kind]
  | path kind added => simpa [kind] using map_added.mpr ⟨added, rfl⟩
  | dryRun kind first => simp [kind, first]
  | option kind => simp [kind]
  | valued kind added => simpa [kind] using map_added.mpr ⟨added, rfl⟩

end Takes

/-!
### The help
-/

/-- A flag for the help stands among the options, and the arguments in front of it make sense.
What is behind it does not matter. -/
def AsksForHelp (arguments : List Text) : Prop :=
  ∃ before flag after, arguments = before ++ flag :: after ∧ kindOf flag = .help ∧
    ['-', '-'] ∉ before ∧ ∃ a, Arguments.read before = .ok a

section Help

variable {a b : Arguments} {s : Text}

/-- What takes in a path or a value does not ask for the help. -/
theorem map_ne_help {α β : Type} {x : Except ArgumentError α} {f : α → β} :
    (x.mapError Stop.error).map f ≠ .error .help := by
  cases x with
  | ok a => nofun
  | error e => nofun

/-- One argument asks for the help only as an option. -/
theorem takeIn_eq_help {waiting : Option Valued} :
    a.takeIn waiting false s = .error .help ↔ waiting = none ∧ kindOf s = .help := by
  unfold takeIn
  cases waiting with
  | some option =>
      refine iff_of_false ?_ (fun asked => nomatch asked.1)
      dsimp only
      split
      next => nofun
      next => exact map_ne_help
  | none =>
      dsimp only
      rw [if_neg Bool.false_ne_true]
      cases kind : kindOf s with
      | help => simp
      | path => simpa using map_ne_help
      | valued option value => simpa using map_ne_help
      | dryRun =>
          dsimp only
          split
          next => simp
          next => simp
      | endOfOptions => simp
      | needlessValue flag => simp
      | option option => simp
      | unknown => simp

theorem kindOf_eq_endOfOptions : kindOf s = .endOfOptions ↔ s = ['-', '-'] := by
  unfold kindOf
  split
  next hyphens => exact iff_of_true rfl hyphens
  next other =>
    refine iff_of_false ?_ other
    repeat' split
    all_goals nofun

/-- Only two hyphens end the options. -/
theorem takeIn_open {waiting waiting' : Option Valued} {ended : Bool} (other : s ≠ ['-', '-'])
    (taken : a.takeIn waiting false s = .ok (b, waiting', ended)) : ended = false := by
  cases takeIn_eq_ok.mp taken with
  | endOfOptions kind => exact absurd (kindOf_eq_endOfOptions.mp kind) other
  | _ => rfl

/-- Behind the end of the options nothing asks for the help. -/
theorem readFrom_ended_ne_help {arguments : List Text} :
    readFrom a none true arguments ≠ .error .help := by
  induction arguments generalizing a with
  | nil => nofun
  | cons s rest ih =>
      rw [readFrom_cons]
      intro asked
      rcases bind_eq_error.mp asked with first | ⟨⟨b, waiting, ended⟩, taken, later⟩
      · exact map_ne_help first
      · obtain ⟨c, added, same⟩ := map_eq_ok.mp taken
        cases same
        exact ih later

/-- Arguments ask for the help if they are taken in without a mistake up to a flag for it that
stands among the options. -/
theorem readFrom_eq_help_iff {waiting : Option Valued} {arguments : List Text} :
    readFrom a waiting false arguments = .error .help ↔
      ∃ before flag after, arguments = before ++ flag :: after ∧ kindOf flag = .help ∧
        ['-', '-'] ∉ before ∧ ∃ b, readFrom a waiting false before = .ok b := by
  induction arguments generalizing a waiting with
  | nil =>
      refine iff_of_false ?_ fun ⟨before, flag, after, parts, _⟩ => ?_
      · cases waiting with
        | none => nofun
        | some option => nofun
      · cases before with
        | nil => cases parts
        | cons s before => cases parts
  | cons s rest ih =>
      rw [readFrom_cons, bind_eq_error]
      constructor
      · rintro (asked | ⟨⟨b, waiting', ended⟩, taken, later⟩)
        · obtain ⟨rfl, flag⟩ := takeIn_eq_help.mp asked
          exact ⟨[], s, rest, rfl, flag, List.not_mem_nil, a, rfl⟩
        · by_cases hyphens : s = ['-', '-']
          · subst hyphens
            cases waiting with
            | none =>
                cases taken
                exact absurd later readFrom_ended_ne_help
            | some option => cases taken
          · obtain rfl := takeIn_open hyphens taken
            obtain ⟨before, flag, after, rfl, isHelp, among, c, read⟩ := ih.mp later
            refine ⟨s :: before, flag, after, rfl, isHelp, ?_, c, ?_⟩
            · exact List.not_mem_cons_of_ne_of_not_mem (Ne.symm hyphens) among
            · rw [readFrom_cons, taken]
              exact read
      · rintro ⟨before, flag, after, parts, isHelp, among, b, read⟩
        cases before with
        | nil =>
            obtain ⟨rfl, rfl⟩ := List.cons.inj parts
            cases waiting with
            | none => exact Or.inl (takeIn_eq_help.mpr ⟨rfl, isHelp⟩)
            | some option => cases read
        | cons first before =>
            obtain ⟨rfl, rfl⟩ := List.cons.inj parts
            rw [readFrom_cons] at read
            obtain ⟨⟨c, waiting', ended⟩, taken, read⟩ := bind_eq_ok.mp read
            obtain rfl := takeIn_open (fun same => among (by simp [same])) taken
            refine Or.inr ⟨_, taken, ih.mpr ⟨before, flag, after, rfl, isHelp, ?_, b, read⟩⟩
            exact fun member => among (List.mem_cons_of_mem s member)

/-- The help is asked for in one way only. -/
theorem read_eq_help_iff {arguments : List Text} :
    Arguments.read arguments = .error .help ↔ AsksForHelp arguments :=
  readFrom_eq_help_iff

end Help

/-!
### The flag
-/

/-- The same arguments with the flag for a dry run. -/
def dried (a : Arguments) : Arguments := { a with dryRun := true }

section Dried

variable {a b : Arguments} {s : Text}

/-- The flag is neither read nor changed where a path is taken in. -/
theorem addPath_dried (added : a.addPath s = .ok b) :
    b.dryRun = a.dryRun ∧ a.dried.addPath s = .ok b.dried := by
  unfold addPath at added ⊢
  cases kept : path s with
  | error e =>
      rw [kept] at added
      cases added
  | ok s =>
      obtain ⟨source, target, config, logLevel, dryRun⟩ := a
      rw [kept] at added
      cases source with
      | none =>
          obtain rfl := Except.ok.inj added
          exact ⟨rfl, rfl⟩
      | some source =>
          cases target with
          | none =>
              obtain rfl := Except.ok.inj added
              exact ⟨rfl, rfl⟩
          | some target => cases added

/-- The flag is neither read nor changed where an option is taken in. -/
theorem addValue_dried {option : Valued} (added : a.addValue option s = .ok b) :
    b.dryRun = a.dryRun ∧ a.dried.addValue option s = .ok b.dried := by
  obtain ⟨source, target, config, logLevel, dryRun⟩ := a
  cases option with
  | config =>
      cases config with
      | some config => cases added
      | none =>
          unfold addValue at added ⊢
          cases kept : path s with
          | error e =>
              rw [kept] at added
              cases added
          | ok p =>
              rw [kept] at added
              obtain rfl := Except.ok.inj added
              exact ⟨rfl, rfl⟩
  | logLevel =>
      cases logLevel with
      | some logLevel => cases added
      | none =>
          obtain rfl := Except.ok.inj added
          exact ⟨rfl, rfl⟩

/-- What one argument does to the flag: where it was given it stays, and where it was not, the
argument is taken in just so with it. -/
theorem takeIn_dried {waiting waiting' : Option Valued} {ended ended' : Bool}
    (taken : a.takeIn waiting ended s = .ok (b, waiting', ended')) :
    (a.dryRun = true → b.dryRun = true) ∧
      (b.dryRun = false → a.dried.takeIn waiting ended s = .ok (b.dried, waiting', ended')) := by
  rw [takeIn_eq_ok] at taken ⊢
  cases taken with
  | value kind added =>
      obtain ⟨flag, dry⟩ := addValue_dried added
      exact ⟨flag.trans, fun _ => .value kind dry⟩
  | pathBehind added =>
      obtain ⟨flag, dry⟩ := addPath_dried added
      exact ⟨flag.trans, fun _ => .pathBehind dry⟩
  | endOfOptions kind => exact ⟨id, fun _ => .endOfOptions kind⟩
  | path kind added =>
      obtain ⟨flag, dry⟩ := addPath_dried added
      exact ⟨flag.trans, fun _ => .path kind dry⟩
  | dryRun kind first => exact ⟨fun _ => rfl, nofun⟩
  | option kind => exact ⟨id, fun _ => .option kind⟩
  | valued kind added =>
      obtain ⟨flag, dry⟩ := addValue_dried added
      exact ⟨flag.trans, fun _ => .valued kind dry⟩

/-- Arguments that are read without the flag are read just so with it. -/
theorem readFrom_dried {waiting : Option Valued} {ended : Bool} {arguments : List Text}
    (read : readFrom a waiting ended arguments = .ok b) :
    (a.dryRun = true → b.dryRun = true) ∧
      (b.dryRun = false → readFrom a.dried waiting ended arguments = .ok b.dried) := by
  induction arguments generalizing a waiting ended with
  | nil =>
      cases waiting with
      | none =>
          obtain rfl := Except.ok.inj read
          exact ⟨id, fun _ => rfl⟩
      | some option => cases read
  | cons s rest ih =>
      rw [readFrom_cons] at read ⊢
      obtain ⟨⟨next, waiting', ended'⟩, taken, read⟩ := bind_eq_ok.mp read
      obtain ⟨stays, dry⟩ := takeIn_dried taken
      obtain ⟨later, later'⟩ := ih read
      refine ⟨fun given => later (stays given), fun wet => ?_⟩
      have off : next.dryRun = false := by
        cases flag : next.dryRun with
        | false => rfl
        | true =>
            rw [later flag] at wet
            cases wet
      rw [dry off]
      exact later' wet

end Dried

/-- The flag in front of arguments without it changes nothing else. -/
theorem read_dryRun {arguments : List Text} {a : Arguments}
    (read : Arguments.read arguments = .ok a) (wet : a.dryRun = false) :
    Arguments.read (dryRunName :: arguments) = .ok a.dried := by
  have flag : readFrom {} none false (dryRunName :: arguments) =
      readFrom (dried {}) none false arguments := by
    rw [readFrom_cons]
    rfl
  rw [Arguments.read, flag]
  exact (readFrom_dried read).2 wet

end Swatch.Arguments
