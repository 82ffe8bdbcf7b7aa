/-
Module: Swatch.Proofs.Alike
Purpose: Style sheets of one outline that are printed alike agree line by line.
Main exports:
  Declaration.line, Comparable, printItems_cancel
-/
import Swatch.Proofs.Layout
import Swatch.Proofs.Lines

namespace Swatch

/-!
### Lines

Texts stand on one line, so printed sheets are compared line by line.  A comment may take
many lines, but an outline keeps the comments.
-/

/-- Equal texts are equal up to where a character first stands, and behind it. -/
theorem cut_at {c : Char} {front back x y : Text} (first : c ∉ front) (second : c ∉ back)
    (same : front ++ c :: x = back ++ c :: y) : front = back ∧ x = y := by
  induction front generalizing back with
  | nil =>
      cases back with
      | nil => exact ⟨rfl, (List.cons.inj same).2⟩
      | cons d back =>
          rw [(List.cons.inj same).1] at second
          exact absurd List.mem_cons_self second
  | cons d front ih =>
      cases back with
      | nil =>
          rw [← (List.cons.inj same).1] at first
          exact absurd List.mem_cons_self first
      | cons e back =>
          obtain ⟨rfl, tail⟩ := List.cons.inj same
          obtain ⟨rfl, rests⟩ := ih (List.not_mem_of_not_mem_cons first)
            (List.not_mem_of_not_mem_cons second) tail
          exact ⟨rfl, rests⟩

/-- Lines that end in the same marks are told apart by what stands before those. -/
theorem cut_line (mark : Text) {front back x y : Text} (ends : OneLine mark)
    (first : OneLine front) (second : OneLine back)
    (same : front ++ mark ++ '\n' :: x = back ++ mark ++ '\n' :: y) :
    front = back ∧ x = y := by
  obtain ⟨lines, rests⟩ := cut_at (oneLine_append.mpr ⟨first, ends⟩)
    (oneLine_append.mpr ⟨second, ends⟩) same
  exact ⟨List.append_cancel_right lines, rests⟩

/-- A name holds name characters only. -/
theorem IsName.notMem {name : Text} (isName : IsName name) {c : Char}
    (other : isNameChar c = false) : c ∉ name := by
  intro member
  have inside := (isName.2 c member).1
  rw [other] at inside
  cases inside

theorem IsName.oneLine {name : Text} (isName : IsName name) : OneLine name :=
  isName.notMem (by decide)

theorem oneLine_atRuleHead {name params : Text} (isName : IsName name)
    (text : OneLine params) : OneLine (atRuleHead name params) := by
  rw [atRuleHead]
  refine oneLine_cons.mpr ⟨by decide, ?_⟩
  split
  next => exact isName.oneLine
  next =>
    exact oneLine_append.mpr ⟨isName.oneLine, oneLine_cons.mpr ⟨by decide, text⟩⟩

/-- The head of an at-rule tells its name from its parameters. -/
theorem atRuleHead_inj {name params other others : Text} (isName : IsName name)
    (isOther : IsName other) (same : atRuleHead name params = atRuleHead other others) :
    name = other ∧ params = others := by
  have space {x : Text} (word : IsName x) : ' ' ∉ x := word.notMem (by decide)
  simp only [atRuleHead, List.cons.injEq, true_and, List.isEmpty_iff] at same
  split at same
  next first =>
    split at same
    next second => exact ⟨same, first.trans second.symm⟩
    next =>
      subst same
      exact absurd (List.mem_append_right _ List.mem_cons_self) (space isName)
  next =>
    split at same
    next =>
      subst same
      exact absurd (List.mem_append_right _ List.mem_cons_self) (space isOther)
    next =>
      exact cut_at (space isName) (space isOther) same

/-- What stands behind a value, up to the end of the line. -/
def Declaration.ending (d : Declaration) : Text :=
  if d.important then " !important;".toList else [';']

theorem text_eq_ending (d : Declaration) :
    d.text = (d.property ++ ':' :: ' ' :: (d.value ++ d.ending)) ++ ['\n'] := by
  delta Declaration.text Declaration.ending
  cases d.important <;> simp

theorem oneLine_declaration {d : Declaration} (isName : IsName d.property)
    (text : OneLine d.value) : OneLine (d.property ++ ':' :: ' ' :: (d.value ++ d.ending)) := by
  have ending : OneLine d.ending := by
    delta Declaration.ending
    cases d.important <;> decide
  exact oneLine_append.mpr ⟨isName.oneLine, oneLine_cons.mpr ⟨by decide,
    oneLine_cons.mpr ⟨by decide, oneLine_append.mpr ⟨text, ending⟩⟩⟩⟩

/-- A declaration as its line shows it: the property, and the line as a whole. -/
def Declaration.line (d : Declaration) : Declaration := ⟨d.property, d.text, false⟩

/-- Declarations with the same first line agree as far as the line shows. -/
theorem line_of_text {d e : Declaration} (name : IsName d.property) (other : IsName e.property)
    (first : OneLine d.value) (second : OneLine e.value) {x y : Text}
    (same : d.text ++ x = e.text ++ y) : d.line = e.line ∧ x = y := by
  rw [text_eq_ending, text_eq_ending, List.append_assoc _ ['\n'] x,
    List.append_assoc _ ['\n'] y] at same
  obtain ⟨lines, rests⟩ :=
    cut_at (oneLine_declaration name first) (oneLine_declaration other second) same
  have colon {w : Text} (word : IsName w) : ':' ∉ w := word.notMem (by decide)
  obtain ⟨properties, -⟩ := cut_at (colon name) (colon other) lines
  have texts : d.text = e.text := by rw [text_eq_ending, text_eq_ending, lines]
  refine ⟨?_, rests⟩
  rw [Declaration.line, Declaration.line, properties, texts]

/-!
### Items
-/

section Items

variable {s : FormatSettings} {f : Declaration → Declaration}

theorem isBlock_outline (n : Node) : (n.outline f).isBlock = n.isBlock := by
  cases n <;> rfl

theorem isComment_outline (n : Node) : (n.outline f).isComment = n.isComment := by
  cases n <;> rfl

/-- The empty line before an item depends on the outlines alone. -/
theorem gap_outline (previous : Option Node) (n : Node) :
    s.gap (previous.map (Node.outline f)) (n.outline f) = s.gap previous n := by
  cases previous with
  | none => rfl
  | some previous =>
      simp only [FormatSettings.gap, Option.map_some, separates, isBlock_outline,
        isComment_outline]
      rfl

/-- Two items that have the same outline, with names and with texts of one line. -/
structure Comparable (a b : List Node) : Prop where
  outline : outlineAll Declaration.blank a = outlineAll Declaration.blank b
  names : AllNames IsName a ∧ AllNames IsName b
  texts : AllTexts OneLine a ∧ AllTexts OneLine b

theorem Comparable.cons {n m : Node} {rest more : List Node}
    (comparable : Comparable (n :: rest) (m :: more)) :
    Comparable [n] [m] ∧ Comparable rest more := by
  obtain ⟨outline, ⟨first, second⟩, front, back⟩ := comparable
  rw [allNames_cons] at first second
  rw [allTexts_cons] at front back
  rw [outlineAll, outlineAll, List.cons.injEq] at outline
  refine ⟨⟨?_, ⟨first.1, second.1⟩, front.1, back.1⟩,
    outline.2, ⟨first.2, second.2⟩, front.2, back.2⟩
  rw [outlineAll, outlineAll, outline.1]
  rfl

mutual

/-- An item is told from what is printed behind it. -/
theorem printItem_cancel (keeps : s.stripComments = false) (depth : Nat) {n m : Node}
    (comparable : Comparable [n] [m]) {x y : Text}
    (same : printItem s depth n ++ x = printItem s depth m ++ y) :
    n.mapDeclarations Declaration.line = m.mapDeclarations Declaration.line ∧ x = y := by
  obtain ⟨outline, ⟨names, otherNames⟩, texts, otherTexts⟩ := comparable
  have outline : n.outline Declaration.blank = m.outline Declaration.blank :=
    (List.cons.inj outline).1
  cases n with
  | rule selector children =>
      cases m with
      | rule other others =>
          rw [allTexts_rule] at texts otherTexts
          rw [allNames_rule] at names otherNames
          have inner : Comparable children others :=
            ⟨(Node.rule.inj outline).2, ⟨names, otherNames⟩, texts.2, otherTexts.2⟩
          rw [printItem_rule, printItem_rule, List.append_cancel_left_eq] at same
          obtain ⟨selectors, tail⟩ := cut_line [' ', '\x7b'] (by decide) texts.1
            otherTexts.1 (by simpa using same)
          obtain ⟨inside, close⟩ := printItems_cancel keeps (depth + 1) rfl inner tail
          simp only [List.append_cancel_left_eq, List.cons.injEq, true_and] at close
          rw [Node.mapDeclarations, Node.mapDeclarations, selectors, inside]
          exact ⟨rfl, close⟩
      | _ => cases outline
  | atBlock name params children =>
      cases m with
      | atBlock other others inner =>
          rw [allTexts_atBlock] at texts otherTexts
          rw [allNames_atBlock] at names otherNames
          have inside : Comparable children inner :=
            ⟨(Node.atBlock.inj outline).2.2, ⟨names.2, otherNames.2⟩, texts.2, otherTexts.2⟩
          rw [printItem_atBlock, printItem_atBlock, List.append_cancel_left_eq] at same
          obtain ⟨heads, tail⟩ := cut_line [' ', '\x7b'] (by decide)
            (oneLine_atRuleHead names.1 texts.1) (oneLine_atRuleHead otherNames.1 otherTexts.1)
            (by simpa using same)
          obtain ⟨lines, close⟩ := printItems_cancel keeps (depth + 1) rfl inside tail
          obtain ⟨rfl, rfl⟩ := atRuleHead_inj names.1 otherNames.1 heads
          simp only [List.append_cancel_left_eq, List.cons.injEq, true_and] at close
          rw [Node.mapDeclarations, Node.mapDeclarations, lines]
          exact ⟨rfl, close⟩
      | _ => cases outline
  | atStatement name params =>
      cases m with
      | atStatement other others =>
          rw [allTexts_atStatement] at texts otherTexts
          rw [allNames_atStatement] at names otherNames
          rw [printItem_atStatement, printItem_atStatement, List.append_cancel_left_eq] at same
          obtain ⟨heads, tail⟩ := cut_line [';'] (by decide)
            (oneLine_atRuleHead names texts) (oneLine_atRuleHead otherNames otherTexts)
            (by simpa using same)
          obtain ⟨rfl, rfl⟩ := atRuleHead_inj names otherNames heads
          exact ⟨rfl, tail⟩
      | _ => cases outline
  | declaration d =>
      cases m with
      | declaration e =>
          rw [allTexts_declaration] at texts otherTexts
          rw [allNames_declaration] at names otherNames
          rw [printItem_declaration, printItem_declaration, List.append_cancel_left_eq] at same
          obtain ⟨lines, rests⟩ := line_of_text names otherNames texts otherTexts same
          exact ⟨congrArg Node.declaration lines, rests⟩
      | _ => cases outline
  | comment text =>
      cases m with
      | comment other =>
          cases outline
          rw [printItem_comment, printItem_comment, List.append_cancel_left_eq,
            List.append_cancel_left_eq] at same
          exact ⟨rfl, (List.cons.inj same).2⟩
      | _ => cases outline

/-- Items of one outline that are printed alike agree as far as their lines show. -/
theorem printItems_cancel (keeps : s.stripComments = false) (depth : Nat)
    {previous other : Option Node}
    (before : previous.map (Node.outline Declaration.blank) =
      other.map (Node.outline Declaration.blank))
    {nodes others : List Node} (comparable : Comparable nodes others) {x y : Text}
    (same : printItems s depth previous nodes ++ x = printItems s depth other others ++ y) :
    Node.mapDeclarationsAll Declaration.line nodes =
      Node.mapDeclarationsAll Declaration.line others ∧ x = y := by
  cases nodes with
  | nil =>
      cases others with
      | nil => exact ⟨rfl, same⟩
      | cons m more => cases comparable.outline
  | cons n rest =>
      cases others with
      | nil => cases comparable.outline
      | cons m more =>
          obtain ⟨first, later⟩ := comparable.cons
          have outline : n.outline Declaration.blank = m.outline Declaration.blank :=
            (List.cons.inj first.outline).1
          have gaps : s.gap previous n = s.gap other m := by
            rw [← gap_outline (f := Declaration.blank), before, outline, gap_outline]
          rw [printItems_cons keeps, printItems_cons keeps, gaps,
            List.append_cancel_left_eq] at same
          obtain ⟨head, tail⟩ := printItem_cancel keeps depth first same
          obtain ⟨tails, rests⟩ := printItems_cancel keeps depth
            (by rw [Option.map_some, Option.map_some, outline]) later tail
          exact ⟨by rw [Node.mapDeclarationsAll, Node.mapDeclarationsAll, head, tails], rests⟩

end

end Items

end Swatch
