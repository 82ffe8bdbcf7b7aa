/-
Module: Swatch.Proofs.Direct
Purpose: When reading the formatted text again loses nothing on the way to the variables.
Main exports:
  processDirect, process_of_separate, process_eq_direct_iff
-/
import Swatch.Pipeline
import Swatch.Proofs.Grouping
import Swatch.Proofs.Stability

namespace Swatch

/-- The pipeline without the text between its two halves: what would be printed is handed
on as it is. -/
def processDirect (c : Config) (resolve : Resolver) (source : Text) :
    Except PipelineError Outcome := do
  let nodes ← (parse c.format.normalizeCommas source).mapError .stylesheet
  let report ← (deduplicate c.naming resolve (printed c.format nodes)).mapError .naming
  return .ofReport c report

/-!
### A resolver that finds no colours

Where nothing is replaced, the result shows all texts of the sheet that was handed on.
-/

/-- The resolver that finds no colours. -/
def colourless : Resolver := fun token => .error (.unsupported token)

/-- Without colours nothing is replaced. -/
theorem report_colourless (s : VariableSettings) (nodes : List Node) :
    (report s colourless nodes).grouping.groups = [] ∧
      (report s colourless nodes).nodes = nodes := by
  have none : (buildGroups s colourless (literals nodes)).groups = [] := by
    refine List.eq_nil_iff_forall_not_mem.mpr fun g member => ?_
    obtain ⟨i, color, place, -⟩ := mem_buildGroups.mp member
    obtain ⟨t, -, resolved⟩ := mem_distinctColors.mp (List.mem_of_getElem? place)
    cases resolved
  refine ⟨none, ?_⟩
  have kept : substitute (buildGroups s colourless (literals nodes)).groups nodes = nodes := by
    rw [none]
    exact Node.mapDeclarationsAll_id nodes
  exact kept

/-- The css of a sheet without colours. -/
theorem css_colourless (c : Config) (nodes : List Node) :
    (Outcome.ofReport c (report c.naming colourless nodes)).css =
      print c.format (rootRule c.naming [] :: nodes) := by
  obtain ⟨groups, same⟩ := report_colourless c.naming nodes
  have css : (Outcome.ofReport c (report c.naming colourless nodes)).css =
      assemble c.naming c.format (report c.naming colourless nodes).grouping.groups
        (report c.naming colourless nodes).nodes := rfl
  rw [css, groups, same, assemble_eq_print]

section Direct

variable {c : Config} {source : Text} {nodes others : List Node}

/-- The rule of no variables is the same without comments. -/
theorem visible_rootRule (s : FormatSettings) (naming : VariableSettings)
    (shown : visible s nodes = nodes) :
    visible s (rootRule naming [] :: nodes) = rootRule naming [] :: nodes := by
  rw [visible] at shown ⊢
  split at shown
  next strips =>
    rw [if_pos strips, withoutComments, shown]
    rfl
  next keeps => rw [if_neg keeps]

/-- Sheets behind the rule of no variables that are printed alike are the same, if one is the
other spelled anew. -/
theorem eq_of_print_rootRule {s : FormatSettings} {commas : Bool} {naming : VariableSettings}
    (respelling : respellAll commas nodes = some others) (names : AllNames IsName nodes)
    (texts : AllTexts OneLine nodes)
    (first : visible s nodes = nodes) (second : visible s others = others)
    (same : print s (rootRule naming [] :: others) = print s (rootRule naming [] :: nodes)) :
    others = nodes := by
  rw [← print_visible, ← print_visible s (rootRule naming [] :: nodes),
    visible_rootRule s naming first, visible_rootRule s naming second] at same
  have alike : print s.keeping (rootRule naming [] :: others) ++ [] =
      print s.keeping (rootRule naming [] :: nodes) ++ [] := by rw [same]
  rw [print, print, printItems_cons rfl, printItems_cons rfl] at alike
  have behind := List.append_cancel_left (List.append_cancel_left alike)
  exact eqAll_of_line respelling (printItems_cancel rfl 0 rfl
    (comparable_respell respelling names texts) behind).1

/-- Where the source is read, the pipeline goes on with the formatted text. -/
theorem process_eq_processFormatted (resolve : Resolver) (layout : c.format.validate = .ok ())
    (read : parse c.format.normalizeCommas source = .ok nodes) :
    process c resolve source =
      processFormatted c resolve (print c.format.keeping (printed c.format nodes)) := by
  have formatted : format c.format source =
      .ok (print c.format.keeping (printed c.format nodes)) :=
    format_eq_ok.mpr ⟨layout, nodes, read, rfl⟩
  rw [process, formatSource, formatted]
  rfl

/-- A source that cannot be read fails in the same way in both pipelines. -/
theorem process_of_unreadable (resolve : Resolver) (layout : c.format.validate = .ok ())
    {e : SheetError} (read : parse c.format.normalizeCommas source = .error e) :
    process c resolve source = .error (.stylesheet e) ∧
      processDirect c resolve source = .error (.stylesheet e) := by
  have formatted : format c.format source = .error e := by
    rw [format, layout, read]
    rfl
  rw [process, formatSource, formatted, processDirect, read]
  exact ⟨rfl, rfl⟩

theorem processDirect_of_read (resolve : Resolver) (naming : c.naming.validate = .ok ())
    (read : parse c.format.normalizeCommas source = .ok nodes) :
    processDirect c resolve source =
      .ok (.ofReport c (report c.naming resolve (printed c.format nodes))) := by
  rw [processDirect, read]
  simp only [deduplicate, naming]
  rfl

/-- Where every text of the printed sheet is in its normal spelling, reading it again loses
nothing. -/
theorem process_of_normal (resolve : Resolver) (layout : c.format.validate = .ok ())
    (naming : c.naming.validate = .ok ())
    (read : parse c.format.normalizeCommas source = .ok nodes)
    (framed : FramedSheet (printed c.format nodes))
    (normal : NormalAll c.format.normalizeCommas (printed c.format nodes)) :
    process c resolve source = processDirect c resolve source := by
  have reread := parse_print (s := c.format.keeping) layout rfl framed normal
  rw [processDirect_of_read resolve naming read, process_eq_processFormatted resolve layout read,
    processFormatted, reread]
  simp only [deduplicate, naming]
  rfl

/-- Of a source without tokens that fuse or change nothing is lost, as far as its sheet keeps to
itself. -/
theorem process_of_separate (resolve : Resolver) (layout : c.format.validate = .ok ())
    (naming : c.naming.validate = .ok ())
    (read : parse c.format.normalizeCommas source = .ok nodes)
    (framed : FramedSheet (printed c.format nodes))
    (apart : separate (tokens (dropMark source)) = true) :
    process c resolve source = processDirect c resolve source :=
  process_of_normal resolve layout naming read framed
    ((normalAll_of_separate read apart).printed c.format)

/-- The pipeline that prints the formatted sheet and reads it again agrees with the direct one
for all resolvers exactly where every text of the printed sheet is in its normal spelling.
The sheet has to keep to itself: no text of it reaches over its end when it is read again. -/
theorem process_eq_direct_iff (layout : c.format.validate = .ok ())
    (naming : c.naming.validate = .ok ())
    (framed : ∀ nodes, parse c.format.normalizeCommas source = .ok nodes →
      FramedSheet (printed c.format nodes)) :
    (∀ resolve, process c resolve source = processDirect c resolve source) ↔
      ∀ nodes, parse c.format.normalizeCommas source = .ok nodes →
        NormalAll c.format.normalizeCommas (printed c.format nodes) := by
  cases read : parse c.format.normalizeCommas source with
  | error e =>
      refine ⟨fun _ => nofun, fun _ resolve => ?_⟩
      obtain ⟨first, second⟩ := process_of_unreadable resolve layout read
      rw [first, second]
  | ok nodes =>
      have sheet := framed nodes read
      have again := toOption_parse_print c.format.normalizeCommas (s := c.format.keeping) layout
        rfl sheet
      constructor
      · rintro same _ ⟨⟩
        have agree := same colourless
        rw [processDirect_of_read colourless naming read,
          process_eq_processFormatted colourless layout read, processFormatted] at agree
        cases reread : parse c.format.normalizeCommas
            (print c.format.keeping (printed c.format nodes)) with
        | error e =>
            rw [reread] at agree
            cases agree
        | ok others =>
            rw [reread] at again agree
            simp only [deduplicate, naming] at agree
            have respelling : respellAll c.format.normalizeCommas (printed c.format nodes) =
                some others := again.symm
            have css := congrArg Outcome.css (Except.ok.inj agree)
            rw [css_colourless, css_colourless] at css
            have same := eq_of_print_rootRule respelling sheet.items.names
              ((oneLine_of_parse read).printed c.format) (visible_eq_self isComment_printed)
              (visible_eq_self (isComment_respell_printed respelling)) css
            rw [same] at respelling
            exact (respellAll_eq_self _).mp respelling
      · intro normal resolve
        exact process_of_normal resolve layout naming read sheet (normal nodes rfl)

end Direct

/-- The sheet for wide screens takes the same way. -/
theorem process_eq_direct_iff_mediaSheet :
    process {} canonicalize mediaText = processDirect {} canonicalize mediaText := by
  have only (nodes : List Node) (read : parse true mediaText = .ok nodes) : mediaSheet = nodes :=
    Except.ok.inj (parse_mediaText.symm.trans read)
  have framed : FramedSheet (printed {} mediaSheet) := framedSheet_of_keeps (by decide +kernel)
  have apart : separate (tokens (dropMark mediaText)) = true := by decide +kernel
  have normal : NormalAll true (printed {} mediaSheet) :=
    (normalAll_of_separate parse_mediaText apart).printed {}
  exact (process_eq_direct_iff (c := {}) rfl rfl fun nodes read => only nodes read ▸ framed).mpr
    (fun nodes read => only nodes read ▸ normal) canonicalize

/-- Two sheets on which the pipelines differ.  The text of the first is read as another name
the second time.  The property of the second, whose name has a space, cannot be read again. -/
theorem process_ne_direct :
    ((process {} canonicalize "a\x7bx:b.5\x7d".toList).toOption.map Outcome.css =
        some ":root \x7b\n\x7d\n\na \x7b\n  x: b00.5;\n\x7d\n".toList ∧
      (processDirect {} canonicalize "a\x7bx:b.5\x7d".toList).toOption.map Outcome.css =
        some ":root \x7b\n\x7d\n\na \x7b\n  x: b0.5;\n\x7d\n".toList) ∧
    ((process {} canonicalize "a\x7bx\\ y:b\x7d".toList).toOption = none ∧
      (processDirect {} canonicalize "a\x7bx\\ y:b\x7d".toList).toOption.map Outcome.css =
        some ":root \x7b\n\x7d\n\na \x7b\n  x y: b;\n\x7d\n".toList) := by
  decide +kernel

end Swatch
