/-
Module: Swatch.Proofs.Loose
Purpose: A colour with decimal components is replaced by a variable, however loosely it is spelled.
Main exports:
  colourSource, colourSheet, parse_colourSource, report_colourSheet, process_colourSource
-/
import Swatch.Proofs.Denotation
import Swatch.Proofs.Direct
import Swatch.Proofs.Gaps
import Swatch.Proofs.Repetition

namespace Swatch

/-!
### The sheet
-/

/-- A sheet of one rule with one declaration. -/
def colourSheet (value : Text) : List Node :=
  [.rule ['a'] [.declaration { property := "color".toList, value }]]

/-- The sheet of a colour without any space around its property. -/
def colourSource (c : LooseColour) : Text := "a\x7bcolor:".toList ++ c.text ++ ['\x7d']

/-- A list of one declaration without a semicolon is read as it. -/
theorem readItems_colour {commas : Bool} {stop : Position} {ts : List Tree} {value : Text}
    (calm : ∀ t ∈ ts, t.token ≠ .semicolon ∧ t.isBang = false)
    (written : writeValue commas ts = .ok value) :
    (readItems commas .declarations stop (.start .declarations)
        ((Token.ident "color".toList).tree :: Token.colon.tree :: ts)).toOption =
      some [.declaration { property := "color".toList, value }] := by
  have begun : readTree commas .declarations (.start .declarations)
      (Token.ident "color".toList).tree =
        .ok (.declaration (Token.ident "color".toList).tree "color".toList [], []) := rfl
  have parts : ∀ t ∈ Token.colon.tree :: ts, t.token ≠ .semicolon := by
    rw [List.forall_mem_cons]
    exact ⟨nofun, fun t member => (calm t member).1⟩
  have body := @readItems_body commas .declarations stop _ parts
    (Token.ident "color".toList).tree "color".toList [] []
  rw [List.append_nil, List.append_nil] at body
  have none : readImportance stop [] = .ok false := rfl
  have read (item : Text) := readDeclaration_colon commas item "color".toList
    (fun t member => (calm t member).2) none nofun
  simp only [List.append_nil, written] at read
  rw [readItems_step _ begun, body, readItems, endItem]
  simp only [toOption_bind, List.reverse_reverse, read]
  rfl

theorem parse_colourSource (c : LooseColour) :
    parse true (colourSource c) = .ok (colourSheet c.literal) := by
  obtain ⟨ts, forms, calm, written⟩ := c.reads
  have color : IsName "color".toList := by decide
  have element (s : Text) : tokens ('a' :: '\x7b' :: s) = .ident ['a'] :: tokens ('\x7b' :: s) := by
    have sound : IsReadName ['a'] := ⟨List.cons_ne_nil _ _, by decide⟩
    exact tokens_ident sound (stops_cons.mpr rfl) (by simp) (by simp)
  -- The value runs up to the closing brace: neither a semicolon nor an exclamation mark ends it.
  have inside : Forms ("color".toList ++ ':' :: (c.text ++ ['\x7d'])) ['\x7d']
      ((Token.ident "color".toList).tree :: Token.colon.tree :: ts) := by
    have breaks : Breaks (':' :: (c.text ++ ['\x7d'])) := rfl
    have property := Forms.leaf (tokens_name color breaks) rfl nofun
    have colon := Forms.leaf (tokens_colon (c.text ++ ['\x7d'])) rfl nofun
    exact property.trans (colon.trans (forms ['\x7d'] rfl))
  have rule := (Forms.leaf (element _) rfl nofun).trans (Forms.braces inside)
  have spelled : colourSource c =
      'a' :: '\x7b' :: ("color".toList ++ ':' :: (c.text ++ ['\x7d'])) := by
    delta colourSource
    simp
  have begun : readTree true .sheet (.start .sheet) (Token.ident ['a']).tree =
      .ok (.rule [(Token.ident ['a']).tree], []) := rfl
  have role : blockRole .sheet (.rule [(Token.ident ['a']).tree]) .curly =
      .rule [(Token.ident ['a']).tree] := rfl
  have selector : writeValue true [(Token.ident ['a']).tree] = .ok ['a'] := rfl
  have unmarked : dropMark (colourSource c) = colourSource c := by
    rw [spelled]
    rfl
  rw [← toOption_eq_some, toOption_parse, unmarked, spelled, shape_of_forms rule,
    List.singleton_append]
  refine (congrArg Except.toOption (readItems_step _ begun)).trans ?_
  rw [readItems_item (toOption_readTree_rule role _ _ _ _), selector, readItems_colour calm written]
  rfl

/-!
### Reading the formatted sheet again
-/

namespace LooseColour

variable (c : LooseColour)

/-- The literal is spelled as it is written. -/
theorem phrase : ∃ ts, Phrase true c.literal ts :=
  ⟨_, phrase_rgb c.red.small c.green.small c.blue.small⟩

theorem framedSheet : FramedSheet (colourSheet c.literal) := by
  obtain ⟨ts, phrase⟩ := c.phrase
  have element : AreWords IsSelectorWord ['a'] :=
    ⟨[['a']], List.forall_mem_singleton.mpr (.element (by decide)), rfl⟩
  have color : IsName "color".toList := by decide
  have declaration : Declaration.Framed { property := "color".toList, value := c.literal } :=
    phrase.framedDeclaration color
  exact ⟨⟨⟨nofun, framedSelector_of_words element, ⟨rfl, declaration⟩, trivial⟩, trivial⟩, rfl, rfl⟩

theorem normalAll : NormalAll true (colourSheet c.literal) := by
  obtain ⟨ts, phrase⟩ := c.phrase
  have name : IsName ['a'] := by decide
  have element : respelled true ['a'] = some ['a'] := (phrase_ident name).normal
  exact allTexts_rule.mpr ⟨element, allTexts_declaration.mpr phrase.normal⟩

end LooseColour

/-!
### The variable
-/

section Variable

variable {s : VariableSettings} {resolve : Resolver} {v : Text} {color : Color}

/-- The group of the only literal of a sheet. -/
def soleGroup (s : VariableSettings) (color : Color) (literal : Text) : Group :=
  ⟨0, color, [literal], s.name 0⟩

/-- A literal that is resolved is replaced by the first variable. -/
theorem report_colourSheet (literal : IsLiteral v) (resolved : resolve v = .ok color) :
    report s resolve (colourSheet v) =
      { tokens := [v]
        grouping := ⟨[soleGroup s color v], []⟩
        substituted := 1
        nodes := colourSheet (s.reference 0) } := by
  have declared : Node.declarationsAll (colourSheet v) =
      [{ property := "color".toList, value := v }] := rfl
  have found : literals (colourSheet v) = [v] := by
    rw [literals, declared, List.flatMap_singleton, valueLiterals_of_isLiteral literal]
    rfl
  have grouped : buildGroups s resolve [v] = ⟨[soleGroup s color v], []⟩ := by
    simp [buildGroups, fillBuckets, resolved, insertToken, numberBuckets, soleGroup]
  have held : groupOf? [soleGroup s color v] v = some (soleGroup s color v) := by
    simp [groupOf?, soleGroup]
  have counted : substitutions [soleGroup s color v] (colourSheet v) = 1 := by
    rw [substitutions, declared, List.countP_singleton, held]
    rfl
  have replaced : substitute [soleGroup s color v] (colourSheet v) =
      colourSheet (s.reference 0) := by
    have one : substitute [soleGroup s color v] (colourSheet v) =
        [.rule ['a'] [.declaration (Declaration.substitute [soleGroup s color v]
          { property := "color".toList, value := v })]] := rfl
    rw [one, Declaration.substitute, held]
    rfl
  simp only [report, found, grouped, counted, replaced]

end Variable

/-- The sheet of a colour and the rule of its variable above it. -/
def colourCss (literal key : Text) : Text :=
  ":root \x7b\n  /* ".toList ++ literal ++ " */\n  --color-0: ".toList ++ key ++
    ";\n\x7d\n\na \x7b\n  color: var(--color-0);\n\x7d\n".toList

/-- The rule of one variable is printed above the sheet that uses it. -/
theorem assemble_colourSheet (literal : Text) (color : Color) :
    assemble {} {} [soleGroup {} color literal] (colourSheet "var(--color-0)".toList) =
      colourCss literal color.text := by
  have body : print {} (colourSheet "var(--color-0)".toList) =
      "a \x7b\n  color: var(--color-0);\n\x7d\n".toList := by decide
  have root : print {} [rootRule {} [soleGroup {} color literal]] =
      ":root \x7b\n  /* ".toList ++ literal ++ " */\n  --color-0: ".toList ++ color.text ++
        ";\n\x7d\n".toList := by
    have group : soleGroup {} color literal = ⟨0, color, [literal], "--color-0".toList⟩ := rfl
    rw [group]
    simp [print, printItems, printItem, rootRule, Group.declarations, FormatSettings.gap,
      FormatSettings.margin, Declaration.text, Group.provenance, joined, separates, Node.isBlock]
  rw [assemble, body, root]
  delta colourCss
  simp

/-- Leading zeros do not matter to a component. -/
theorem LooseNumber.cutOff_plain (c : LooseNumber) : cutOff c.plain = cutOff c.digits := by
  rw [cutOff, plain, digitsValue_natural, cutOff]

theorem LooseColour.denotes (c : LooseColour) :
    Denotes c.literal (cutOff c.red.digits, cutOff c.green.digits, cutOff c.blue.digits)
      ('#' :: (pairText (cutOff c.red.digits) ++ pairText (cutOff c.green.digits) ++
        pairText (cutOff c.blue.digits))) := by
  rw [← c.red.cutOff_plain, ← c.green.cutOff_plain, ← c.blue.cutOff_plain]
  exact .decimal (isDigitRun_natural _) (isDigitRun_natural _) (isDigitRun_natural _)

/-- However loosely a colour with decimal components below a million is spelled, with leading
zeros and with white space and comments around it and between its parts, it is put into a group
of its own under its literal and replaced by the variable of that group. -/
theorem process_colourSource (c : LooseColour) :
    ∃ color : Color,
      color.levels = (cutOff c.red.digits, cutOff c.green.digits, cutOff c.blue.digits) ∧
      color.text = '#' :: (pairText (cutOff c.red.digits) ++ pairText (cutOff c.green.digits) ++
        pairText (cutOff c.blue.digits)) ∧
      process {} canonicalize (colourSource c) = .ok {
        css := colourCss c.literal color.text
        grouping := ⟨[⟨0, color, [c.literal], "--color-0".toList⟩], []⟩
        tokenCount := 1
        substituted := 1 } := by
  obtain ⟨color, resolved, levels, key⟩ := canonicalize_of_denotes c.denotes
  refine ⟨color, levels, key, ?_⟩
  have literal : IsLiteral c.literal := .inr ⟨_, _, _, isDigitRun_natural _,
    isDigitRun_natural _, isDigitRun_natural _, rfl⟩
  have layout : FormatSettings.validate {} = .ok () := rfl
  have naming : VariableSettings.validate {} = .ok () := by decide
  have shown : printed {} (colourSheet c.literal) = colourSheet c.literal := rfl
  have reread : parse true (print (FormatSettings.keeping {}) (colourSheet c.literal)) =
      .ok (colourSheet c.literal) := parse_print layout rfl c.framedSheet c.normalAll
  -- What is printed after the first reading is the literal, and it is read again as it is.
  have process : process {} canonicalize (colourSource c) =
      .ok (.ofReport {} (report {} canonicalize (colourSheet c.literal))) := by
    rw [@process_eq_processFormatted {} _ _ canonicalize layout (parse_colourSource c), shown,
      processFormatted]
    simp only [reread, deduplicate, naming]
    rfl
  rw [process, report_colourSheet literal resolved, ← assemble_colourSheet]
  rfl

/-- A colour with something to drop at every place. -/
def widelySpelled : LooseColour where
  lead := '/' :: '*' :: (" x *".toList ++ '*' :: '/' :: [' '])
  red := {
    before := ['\t']
    digits := "0300".toList
    after := ['\n']
    opened := .space rfl .nil
    run := ⟨List.cons_ne_nil _ _, List.all_eq_true.mp rfl⟩
    small := by decide
    closed := .space rfl .nil }
  green := {
    before := '/' :: '*' :: ("0,".toList ++ '*' :: '/' :: [])
    digits := "07".toList
    after := [' ', ' ']
    opened := .comment (by decide) .nil
    run := ⟨List.cons_ne_nil _ _, List.all_eq_true.mp rfl⟩
    small := by decide
    closed := .space rfl (.space rfl .nil) }
  blue := {
    before := []
    digits := "999999".toList
    after := '/' :: '*' :: ([] ++ '*' :: '/' :: [])
    opened := .nil
    run := ⟨List.cons_ne_nil _ _, List.all_eq_true.mp rfl⟩
    small := by decide
    closed := .comment (by decide) .nil }
  tail := ['\r', '\n']
  opened := .comment (by decide) (.space rfl .nil)
  closed := .space rfl (.space rfl .nil)

/-- The colour of the literal `rgb(300, 7, 999999)`. -/
theorem process_colourSource_widelySpelled :
    colourSource widelySpelled =
        "a\x7bcolor:/* x **/ rgb(\t0300\n,/*0,*/07  ,999999/**/)\r\n\x7d".toList ∧
      ∃ color : Color, color.levels = (255, 7, 255) ∧ color.text = "#ff07ff".toList ∧
        process {} canonicalize (colourSource widelySpelled) = .ok {
          css := colourCss "rgb(300, 7, 999999)".toList color.text
          grouping := ⟨[⟨0, color, ["rgb(300, 7, 999999)".toList], "--color-0".toList⟩], []⟩
          tokenCount := 1
          substituted := 1 } := by
  refine ⟨by decide, ?_⟩
  obtain ⟨color, levels, key, done⟩ := process_colourSource widelySpelled
  have literal : widelySpelled.literal = "rgb(300, 7, 999999)".toList := by decide
  rw [literal] at done
  exact ⟨color, levels, key, done⟩

end Swatch
