/-
Module: Swatch.Proofs.Stability
Purpose: When formatting a formatted style sheet changes nothing.
Main exports:
  arranged, printed, format_eq_ok, sorted_of_print, format_of_separate, format_idempotent_iff
-/
import Swatch.Proofs.Alike
import Swatch.Proofs.Framing
import Swatch.Proofs.Plain
import Swatch.Proofs.Settled
import Swatch.Proofs.Sorting

namespace Swatch

/-!
### What a formatted sheet shows
-/

/-- The items in the order in which the settings let them be printed. -/
def arranged (s : FormatSettings) (nodes : List Node) : List Node :=
  if s.sortDeclarations then sortDeclarations nodes else nodes

/-- The items that are printed, in the order in which they are printed. -/
def printed (s : FormatSettings) (nodes : List Node) : List Node :=
  visible s (arranged s nodes)

theorem format_eq_ok {s : FormatSettings} {source out : Text} :
    format s source = .ok out ↔ s.validate = .ok () ∧
      ∃ nodes, parse s.normalizeCommas source = .ok nodes ∧
        out = print s.keeping (printed s nodes) := by
  have shown (nodes : List Node) :
      print s.keeping (printed s nodes) = print s (arranged s nodes) :=
    print_visible s (arranged s nodes)
  rw [format]
  cases valid : s.validate with
  | error problem => simp
  | ok u =>
      cases read : parse s.normalizeCommas source with
      | error e => simp [bind, Except.bind]
      | ok nodes =>
          simp only [shown, bind, Except.bind, true_and, Except.ok.injEq, exists_eq_left']
          exact ⟨fun same => (Except.ok.inj same).symm, fun same => congrArg Except.ok same.symm⟩

section Kept

variable {P : Text → Prop}

theorem allTexts_of_perm {nodes others : List Node}
    (perm : (headsAll nodes).Perm (headsAll others)) (all : AllTexts P others) :
    AllTexts P nodes :=
  fun w member => all w ((perm.filterMap Node.spelled?).mem_iff.mp member)

theorem allNames_of_perm {nodes others : List Node}
    (perm : (headsAll nodes).Perm (headsAll others)) (all : AllNames P others) :
    AllNames P nodes :=
  fun x member => all x ((perm.filterMap Node.name?).mem_iff.mp member)

theorem heads_arranged (s : FormatSettings) (nodes : List Node) :
    (headsAll (arranged s nodes)).Perm (headsAll nodes) := by
  rw [arranged]
  split
  next => exact headsAll_sortDeclarations nodes
  next => exact .refl _

theorem outlineAll_arranged (s : FormatSettings) (nodes : List Node) :
    outlineAll Declaration.blank (arranged s nodes) = outlineAll Declaration.blank nodes := by
  rw [arranged]
  split
  next => exact outlineAll_sortDeclarations nodes
  next => rfl

theorem heads_visible (s : FormatSettings) (nodes : List Node) :
    (headsAll (visible s nodes)).Sublist (headsAll nodes) := by
  rw [visible]
  split
  next =>
    rw [headsAll_withoutComments]
    exact List.filter_sublist
  next => exact .refl _

/-- All texts of what is printed are texts of what was read. -/
theorem AllTexts.printed {nodes : List Node} (all : AllTexts P nodes) (s : FormatSettings) :
    AllTexts P (printed s nodes) := by
  have kept := allTexts_of_perm (heads_arranged s nodes) all
  exact fun w member => kept w (((heads_visible s _).filterMap Node.spelled?).subset member)

mutual

theorem withoutComments_item {n : Node} (dark : ∀ h ∈ n.heads, h.isComment = false) :
    n.withoutComments = n := by
  cases n with
  | rule selector children =>
      rw [Node.withoutComments,
        withoutComments_eq_self fun h member => dark h (List.mem_cons_of_mem _ member)]
  | atBlock name params children =>
      rw [Node.withoutComments,
        withoutComments_eq_self fun h member => dark h (List.mem_cons_of_mem _ member)]
  | atStatement name params => rfl
  | declaration d => rfl
  | comment text => rfl

/-- Where there are no comments, none can be left out. -/
theorem withoutComments_eq_self {nodes : List Node}
    (dark : ∀ h ∈ headsAll nodes, h.isComment = false) : withoutComments nodes = nodes := by
  cases nodes with
  | nil => rfl
  | cons n rest =>
      obtain ⟨first, more⟩ := List.forall_mem_append.mp dark
      have item : n.isComment = false := by
        cases n with
        | comment text => exact first _ List.mem_cons_self
        | _ => rfl
      rw [withoutComments, item, withoutComments_item first, withoutComments_eq_self more]
      rfl

end

/-- Items without comments are all printed, in whatever order they stand. -/
theorem visible_eq_self {s : FormatSettings} {nodes : List Node}
    (dark : s.stripComments = true → ∀ h ∈ headsAll nodes, h.isComment = false) :
    visible s nodes = nodes := by
  rw [visible]
  split
  next strips => exact withoutComments_eq_self (dark strips)
  next => rfl

end Kept


/-!
### Sheets that are printed as they were read
-/

mutual

theorem Node.Framed.names {kind : ItemList} {n : Node} (framed : n.Framed kind) :
    AllNames IsName [n] := by
  cases n with
  | rule selector children => exact allNames_rule.mpr framed.2.2.names
  | atBlock name params children => exact allNames_atBlock.mpr ⟨framed.1, framed.2.2.names⟩
  | atStatement name params => exact allNames_atStatement.mpr framed.1
  | declaration d => exact allNames_declaration.mpr framed.2.name
  | comment text => exact allNames_comment text

theorem FramedAll.names {kind : ItemList} {nodes : List Node} (framed : FramedAll kind nodes) :
    AllNames IsName nodes := by
  cases nodes with
  | nil => exact allNames_nil
  | cons n rest => exact allNames_cons.mpr ⟨framed.1.names, framed.2.names⟩

end

section Respelled

variable {commas : Bool} {s : FormatSettings}

mutual

theorem eq_of_line {n m : Node} (respelling : n.respell commas = some m)
    (lines : m.mapDeclarations Declaration.line = n.mapDeclarations Declaration.line) :
    m = n := by
  cases n with
  | rule selector children =>
      obtain ⟨text, inner, -, inside, rfl⟩ := respell_rule.mp respelling
      obtain ⟨rfl, later⟩ := Node.rule.inj lines
      rw [eqAll_of_line inside later]
  | atBlock name params children =>
      obtain ⟨text, inner, -, inside, rfl⟩ := respell_atBlock.mp respelling
      obtain ⟨-, rfl, later⟩ := Node.atBlock.inj lines
      rw [eqAll_of_line inside later]
  | atStatement name params =>
      obtain ⟨text, -, rfl⟩ := respell_atStatement.mp respelling
      exact lines
  | declaration d =>
      obtain ⟨value, -, rfl⟩ := respell_declaration.mp respelling
      have line : Declaration.line { d with value } = d.line := Node.declaration.inj lines
      have text : Declaration.text { d with value } = d.text := (Declaration.mk.inj line).2.1
      rw [text_eq_ending, text_eq_ending] at text
      have front := List.append_cancel_left (List.append_cancel_right text)
      simp only [List.cons.injEq, true_and] at front
      have same : value = d.value := List.append_cancel_right front
      rw [same]
  | comment text =>
      cases respelling
      rfl

/-- Items that show the same lines after their texts were spelled anew were not changed. -/
theorem eqAll_of_line {nodes others : List Node}
    (respelling : respellAll commas nodes = some others)
    (lines : Node.mapDeclarationsAll Declaration.line others =
      Node.mapDeclarationsAll Declaration.line nodes) : others = nodes := by
  cases nodes with
  | nil =>
      cases respelling
      rfl
  | cons n rest =>
      obtain ⟨m, more, first, later, rfl⟩ := respellAll_cons.mp respelling
      obtain ⟨head, tail⟩ := List.cons.inj lines
      rw [eq_of_line first head, eqAll_of_line later tail]

end

/-- Items whose texts were spelled anew can be compared with what they were. -/
theorem comparable_respell {nodes others : List Node}
    (respelling : respellAll commas nodes = some others) (names : AllNames IsName nodes)
    (texts : AllTexts OneLine nodes) : Comparable others nodes where
  outline := outlineAll_respell (fun _ _ => rfl) respelling
  names := by
    refine ⟨?_, names⟩
    rw [AllNames, namesAll_respell respelling]
    exact names
  texts := ⟨oneLine_of_respell respelling, texts⟩

/-- What can be compared can be compared when it is sorted. -/
theorem Comparable.arranged {nodes others : List Node} (comparable : Comparable nodes others)
    (s : FormatSettings) : Comparable (arranged s nodes) others where
  outline := (outlineAll_arranged s nodes).trans comparable.outline
  names := ⟨allNames_of_perm (heads_arranged s nodes) comparable.names.1, comparable.names.2⟩
  texts := ⟨allTexts_of_perm (heads_arranged s nodes) comparable.texts.1, comparable.texts.2⟩

mutual

theorem outline_mapDeclarations (n : Node) :
    (n.mapDeclarations Declaration.line).outline Declaration.unvalued =
      n.outline Declaration.unvalued := by
  cases n with
  | rule selector children => exact congrArg (Node.rule []) (outlineAll_mapDeclarations children)
  | atBlock name params children =>
      exact congrArg (Node.atBlock [] []) (outlineAll_mapDeclarations children)
  | atStatement name params => rfl
  | declaration d => rfl
  | comment text => rfl

/-- Lines show the properties. -/
theorem outlineAll_mapDeclarations (nodes : List Node) :
    outlineAll Declaration.unvalued (Node.mapDeclarationsAll Declaration.line nodes) =
      outlineAll Declaration.unvalued nodes := by
  cases nodes with
  | nil => rfl
  | cons n rest =>
      exact congrArg₂ List.cons (outline_mapDeclarations n) (outlineAll_mapDeclarations rest)

end

/-- Items that are printed as before after their texts were spelled anew and they were sorted
were sorted already, and their texts were in their normal spelling. -/
theorem sorted_of_print (keeps : s.stripComments = false) {nodes others : List Node}
    (respelling : respellAll commas nodes = some others) (names : AllNames IsName nodes)
    (texts : AllTexts OneLine nodes)
    (same : print s (arranged s others) = print s nodes) :
    others = nodes ∧ (s.sortDeclarations = true → SortedAll nodes) := by
  have comparable : Comparable (Swatch.arranged s others) nodes :=
    (comparable_respell respelling names texts).arranged s
  have alike : printItems s 0 none (arranged s others) ++ [] =
      printItems s 0 none nodes ++ [] := congrArg (· ++ []) same
  obtain ⟨lines, -⟩ := printItems_cancel keeps 0 rfl comparable alike
  have shown := congrArg (outlineAll Declaration.unvalued) lines
  rw [outlineAll_mapDeclarations, outlineAll_mapDeclarations] at shown
  have properties : outlineAll Declaration.unvalued others =
      outlineAll Declaration.unvalued nodes :=
    outlineAll_respell (fun _ _ => rfl) respelling
  have sorted : s.sortDeclarations = true → SortedAll nodes := by
    intro sorts
    have order : SortedAll (arranged s others) := by
      rw [arranged, if_pos sorts]
      exact sortedAll_sortDeclarations others
    exact order.of_outline shown
  have settled : arranged s others = others := by
    rw [arranged]
    split
    next sorts => exact sortDeclarations_eq_self ((sorted sorts).of_outline properties.symm)
    next => rfl
  rw [settled] at lines
  exact ⟨eqAll_of_line respelling lines, sorted⟩

end Respelled

/-!
### Formatting twice
-/

section Twice

variable {s : FormatSettings} {nodes : List Node}

/-- Comments that the settings leave out are not printed. -/
theorem isComment_printed (strips : s.stripComments = true) :
    ∀ h ∈ headsAll (printed s nodes), h.isComment = false := by
  intro h member
  rw [printed, visible, if_pos strips, headsAll_withoutComments] at member
  simpa using (List.mem_filter.mp member).2

/-- Spelling texts anew brings no comments back. -/
theorem isComment_respell_printed {commas : Bool} {others : List Node}
    (respelling : respellAll commas (printed s nodes) = some others)
    (strips : s.stripComments = true) : ∀ h ∈ headsAll others, h.isComment = false := by
  intro h member
  have same := map_heads_respell (fun _ _ head => (respell_head head).2.1) respelling
  have found : h.isComment ∈ (headsAll (printed s nodes)).map Node.isComment :=
    same ▸ List.mem_map_of_mem member
  obtain ⟨g, before, comment⟩ := List.mem_map.mp found
  rw [← comment]
  exact isComment_printed strips g before

/-- What was printed is printed again as a whole, in its order. -/
theorem printed_respell {commas : Bool} {others : List Node}
    (respelling : respellAll commas (printed s nodes) = some others) :
    printed s others = arranged s others :=
  visible_eq_self fun strips h member =>
    isComment_respell_printed respelling strips h ((heads_arranged s others).mem_iff.mp member)

/-- A printed sheet is printed as it is once more, unless leaving its comments out brought
declarations together in the wrong order. -/
theorem printed_eq_self
    (sorted : s.sortDeclarations = true → s.stripComments = true →
      SortedAll (printed s nodes)) : printed s (printed s nodes) = printed s nodes := by
  have order : arranged s (printed s nodes) = printed s nodes := by
    rw [arranged]
    split
    next sorts =>
      refine sortDeclarations_eq_self ?_
      cases strips : s.stripComments with
      | true => exact sorted sorts strips
      | false =>
          rw [printed, visible, strips, arranged, if_pos sorts]
          exact sortedAll_sortDeclarations nodes
    next => rfl
  rw [printed, order]
  exact visible_eq_self isComment_printed

/-- A printed sheet with all texts in their normal spelling is printed as it is once more. -/
theorem format_print (valid : s.validate = .ok ()) (framed : FramedSheet (printed s nodes))
    (normal : NormalAll s.normalizeCommas (printed s nodes))
    (sorted : s.sortDeclarations = true → s.stripComments = true → SortedAll (printed s nodes)) :
    format s (print s.keeping (printed s nodes)) = .ok (print s.keeping (printed s nodes)) := by
  have reread := parse_print (s := s.keeping) valid rfl framed normal
  exact format_eq_ok.mpr ⟨valid, printed s nodes, reread, by rw [printed_eq_self sorted]⟩

/-- A source without tokens that fuse or change is formatted once and for all, as far as its sheet
keeps to itself and its declarations stay in order. -/
theorem format_of_separate {source out : Text}
    (read : parse s.normalizeCommas source = .ok nodes) (result : format s source = .ok out)
    (framed : FramedSheet (printed s nodes)) (apart : separate (tokens (dropMark source)) = true)
    (sorted : s.sortDeclarations = true → s.stripComments = true → SortedAll (printed s nodes)) :
    format s out = .ok out := by
  obtain ⟨valid, others, same, rfl⟩ := format_eq_ok.mp result
  obtain rfl : nodes = others := Except.ok.inj (read.symm.trans same)
  exact format_print valid framed ((normalAll_of_separate read apart).printed s) sorted

/-- Formatting a formatted sheet changes nothing exactly where every text of it is in its
normal spelling and, with declarations sorted and comments left out, no two declarations
became neighbours in the wrong order.  The sheet has to keep to itself: no text of it reaches
over its end when it is read again. -/
theorem format_idempotent_iff {source out : Text}
    (read : parse s.normalizeCommas source = .ok nodes) (result : format s source = .ok out)
    (framed : FramedSheet (printed s nodes)) :
    format s out = .ok out ↔ NormalAll s.normalizeCommas (printed s nodes) ∧
      (s.sortDeclarations = true → s.stripComments = true → SortedAll (printed s nodes)) := by
  obtain ⟨valid, others, same, rfl⟩ := format_eq_ok.mp result
  obtain rfl : nodes = others := Except.ok.inj (read.symm.trans same)
  have again := toOption_parse_print s.normalizeCommas (s := s.keeping) valid rfl framed
  have texts : AllTexts OneLine (printed s nodes) := (oneLine_of_parse read).printed s
  constructor
  · intro stable
    obtain ⟨-, others, reread, shown⟩ := format_eq_ok.mp stable
    rw [reread] at again
    have respelling : respellAll s.normalizeCommas (printed s nodes) = some others := again.symm
    rw [printed_respell respelling] at shown
    obtain ⟨rfl, sorted⟩ :=
      sorted_of_print (s := s.keeping) rfl respelling framed.items.names texts shown.symm
    exact ⟨(respellAll_eq_self _).mp respelling, fun sorts _ => sorted sorts⟩
  · rintro ⟨normal, sorted⟩
    exact format_print valid framed normal sorted

end Twice

/-- A sheet with a comment between declarations that are in their order. -/
def mediaSheet : List Node :=
  [.atBlock "media".toList "(min-width:1px)".toList
    [.rule "a[b$=\"c\"]>d".toList
      [.declaration ⟨"color".toList, "#F00".toList, false⟩, .comment ['-'],
        .declaration ⟨"width".toList, "calc(1px + 2%)".toList, true⟩]]]

/-- The text of the sheet, in a layout of its own. -/
def mediaText : Text :=
  "@media (min-width:1px)\x7ba[b$='c']>d\x7bcolor:#F00;/*-*/".toList ++
    "width:calc(1px + 2%)!important\x7d\x7d".toList

theorem parse_mediaText : parse true mediaText = .ok mediaSheet :=
  toOption_eq_some.mp (by decide +kernel)

/-- The comment may go, and the sheet is formatted once and for all. -/
theorem format_idempotent_iff_mediaSheet :
    (format { stripComments := true, sortDeclarations := true } mediaText >>=
        format { stripComments := true, sortDeclarations := true }) =
      format { stripComments := true, sortDeclarations := true } mediaText := by
  let s : FormatSettings := { stripComments := true, sortDeclarations := true }
  obtain ⟨out, result⟩ : ∃ out, format s mediaText = .ok out :=
    ⟨_, format_eq_ok.mpr ⟨rfl, mediaSheet, parse_mediaText, rfl⟩⟩
  have framed : FramedSheet (printed s mediaSheet) := framedSheet_of_keeps (by decide +kernel)
  have apart : separate (tokens (dropMark mediaText)) = true := by decide +kernel
  have normal : NormalAll true (printed s mediaSheet) :=
    (normalAll_of_separate parse_mediaText apart).printed s
  have order : ¬"width".toList < "color".toList := by decide
  have sorted : SortedAll (printed s mediaSheet) :=
    ⟨⟨⟨trivial, order, trivial, trivial, trivial⟩, trivial, trivial⟩, trivial, trivial⟩
  have stable : format s out = .ok out :=
    (format_idempotent_iff parse_mediaText result framed).mpr ⟨normal, fun _ _ => sorted⟩
  exact (congrArg (· >>= format s) result).trans (stable.trans result.symm)

/-- Two sheets that formatting changes a second time.  The name and the number of the first are
printed without anything between them, and so are read as another name.  The declarations of
the second are only neighbours once the comment between them is gone. -/
theorem format_not_idempotent :
    (format {} "a\x7bx:b.5\x7d".toList = .ok "a \x7b\n  x: b0.5;\n\x7d\n".toList ∧
      format {} "a \x7b\n  x: b0.5;\n\x7d\n".toList =
        .ok "a \x7b\n  x: b00.5;\n\x7d\n".toList) ∧
    (format { stripComments := true, sortDeclarations := true }
        "a\x7bd:e;/**/b:c\x7d".toList = .ok "a \x7b\n  d: e;\n  b: c;\n\x7d\n".toList ∧
      format { stripComments := true, sortDeclarations := true }
        "a \x7b\n  d: e;\n  b: c;\n\x7d\n".toList =
          .ok "a \x7b\n  b: c;\n  d: e;\n\x7d\n".toList) :=
  ⟨⟨toOption_eq_some.mp (by decide +kernel), toOption_eq_some.mp (by decide +kernel)⟩,
    ⟨toOption_eq_some.mp (by decide +kernel), toOption_eq_some.mp (by decide +kernel)⟩⟩

end Swatch
