/-
Module: Swatch.Proofs.Repetition
Purpose: A deduplicated sheet has nothing left to replace: references hold no literals, and the
  literals that are left as whole values denote no colour.
Main exports:
  firstMatch_eq_none, valueLiterals_reference, valueLiterals_of_isLiteral, deduplicate_again
-/
import Swatch.Journal
import Swatch.Proofs.Appending

namespace Swatch

/-!
### Texts without literals

A hexadecimal literal starts with a hash, and an `rgb()` literal holds an opening bracket.
-/

/-- A search that succeeds at no place of a text finds nothing. -/
theorem firstMatch_eq_none {α : Type} {find : Text → Option α} {s : Text}
    (fails : ∀ t, t <:+ s → find t = none) : firstMatch find s = none := by
  induction s with
  | nil => exact fails [] (List.suffix_refl [])
  | cons c s ih =>
      rw [firstMatch, fails (c :: s) (List.suffix_refl _), Option.none_or]
      exact ih fun t suffix => fails t (suffix.trans (List.suffix_cons c s))

theorem firstMatch_hexLiteral?_eq_none {s : Text} (absent : '#' ∉ s) :
    firstMatch hexLiteral? s = none := by
  apply firstMatch_eq_none
  intro t suffix
  unfold hexLiteral?
  split
  next digits => exact absurd (suffix.subset List.mem_cons_self) absent
  next => rfl

theorem firstMatch_rgbLiteral?_eq_none {s : Text} (absent : '(' ∉ s) :
    firstMatch rgbLiteral? s = none := by
  apply firstMatch_eq_none
  intro t suffix
  have closed : strip? "rgb(".toList t = none := by
    rw [Option.eq_none_iff_forall_ne_some]
    intro rest opened
    rw [strip?_eq_some] at opened
    subst opened
    exact absent (suffix.subset (List.mem_append_left _ (by decide)))
  rw [rgbLiteral?, closed]
  rfl

/-!
### References
-/

/-- Usable settings have a stem of stem characters. -/
theorem isStemChar_of_valid {s : VariableSettings} (valid : s.validate = .ok ()) :
    ∀ c ∈ s.stem, isStemChar c = true := by
  intro c member
  by_contra strange
  have fails : (!s.stem.all isStemChar) = true := by
    rw [Bool.not_eq_true', List.all_eq_false]
    exact ⟨c, member, strange⟩
  unfold VariableSettings.validate at valid
  rw [if_pos fails] at valid
  split at valid
  next => cases valid
  split at valid
  next => cases valid
  next => cases valid

theorem isStemChar_name {s : VariableSettings} (valid : s.validate = .ok ()) (i : Nat) :
    ∀ c ∈ s.name i, isStemChar c = true := by
  have digits : ∀ c ∈ natural i, isStemChar c = true := by
    intro c member
    have digit : c.isDigit = true :=
      Nat.isDigit_of_mem_toDigits (by decide) (by decide) member
    simp [isStemChar, Char.isAlphanum, digit]
  have hyphens : ∀ c ∈ "--".toList, isStemChar c = true := List.all_eq_true.mp (by decide)
  delta VariableSettings.name
  intro c member
  rcases List.mem_append.mp member with front | back
  · rcases List.mem_append.mp front with hyphen | stem
    · exact hyphens c hyphen
    · exact isStemChar_of_valid valid c stem
  · rcases List.mem_cons.mp back with rfl | number
    · rfl
    · exact digits c number

/-- A reference holds no literal: behind its bracket there is neither a hash nor another opening
bracket, and the bracket itself stands behind other letters. -/
theorem valueLiterals_reference {s : VariableSettings} (valid : s.validate = .ok ()) (i : Nat) :
    valueLiterals (s.reference i) = [] := by
  have absent (c : Char) (other : isStemChar c = false) (bracket : c ≠ ')') :
      c ∉ s.name i ++ [')'] := by
    intro member
    rcases List.mem_append.mp member with inside | last
    · rw [isStemChar_name valid i c inside] at other
      cases other
    · exact bracket (List.mem_singleton.mp last)
  have spelled : s.reference i = 'v' :: 'a' :: 'r' :: '(' :: (s.name i ++ [')']) := by
    delta VariableSettings.reference
    simp
  have hex : firstMatch hexLiteral? (s.reference i) = none := by
    rw [spelled]
    apply firstMatch_hexLiteral?_eq_none
    have hash := absent '#' (by decide) (by decide)
    simpa using hash
  have rgb : firstMatch rgbLiteral? (s.reference i) = none := by
    have later := firstMatch_rgbLiteral?_eq_none (absent '(' (by decide) (by decide))
    rw [spelled, firstMatch, firstMatch, firstMatch, firstMatch, later]
    rfl
  simp [valueLiterals, extractLiterals, hex, rgb]

/-!
### Literals as whole values
-/

/-- A literal holds no literal of the other kind. -/
theorem valueLiterals_of_isLiteral {v : Text} (literal : IsLiteral v) : valueLiterals v = [v] := by
  rcases literal with hex | rgb
  · have found : firstMatch hexLiteral? v = some v := firstMatch_of_find (hexLiteral?_self hex)
    obtain ⟨digits, rfl, -, all⟩ := hex
    have absent : '(' ∉ '#' :: digits := by
      intro member
      rcases List.mem_cons.mp member with same | inside
      · cases same
      · exact absurd (all '(' inside) (by decide)
    simp [valueLiterals, extractLiterals, found, firstMatch_rgbLiteral?_eq_none absent]
  · have found : firstMatch rgbLiteral? v = some v := firstMatch_of_find (rgbLiteral?_self rgb)
    obtain ⟨red, green, blue, hred, hgreen, hblue, rfl⟩ := rgb
    have run {digits : Text} (run : IsDigitRun digits) : '#' ∉ digits :=
      fun inside => absurd (run.2 '#' inside) (by decide)
    have absent : '#' ∉ rgbText red green blue := by
      delta rgbText
      simp [run hred, run hgreen, run hblue]
    simp [valueLiterals, extractLiterals, found, firstMatch_hexLiteral?_eq_none absent]

/-!
### The second pass
-/

/-- Whether a text denotes no colour. -/
def isRejected (resolve : Resolver) (t : Text) : Bool := (resolve t).toOption.isNone

/-- Repetitions may be left out before or after a choice. -/
theorem filter_eraseDups {α : Type} [BEq α] [LawfulBEq α] (p : α → Bool) (l : List α) :
    l.eraseDups.filter p = (l.filter p).eraseDups := by
  induction l using List.reverseRecOn with
  | nil => rfl
  | append_singleton l a ih =>
      rw [eraseDups_concat, List.filter_append]
      by_cases met : a ∈ l <;> by_cases chosen : p a = true
      · simp [met, chosen, ih, eraseDups_concat]
      · simp [met, chosen, ih]
      · simp [met, chosen, ih, eraseDups_concat]
      · simp [met, chosen, ih]

/-- What is rejected is found among the texts that denote no colour. -/
theorem rejections_filter (resolve : Resolver) (tokens : List Text) :
    rejections resolve (tokens.filter (isRejected resolve)) = rejections resolve tokens := by
  induction tokens with
  | nil => rfl
  | cons t rest ih =>
      rw [rejections, rejections] at ih
      cases outcome : resolve t with
      | ok color =>
          have kept : isRejected resolve t = false := by simp [isRejected, outcome, Except.toOption]
          simp [rejections, kept, outcome, ih]
      | error e =>
          have dropped : isRejected resolve t = true := by
            simp [isRejected, outcome, Except.toOption]
          simp [rejections, dropped, outcome, ih]

theorem map_snd_rejections (resolve : Resolver) (tokens : List Text) :
    (rejections resolve tokens).map Prod.snd = faults resolve tokens := by
  induction tokens with
  | nil => rfl
  | cons t rest ih =>
      rw [rejections, faults] at ih
      cases outcome : resolve t with
      | ok color => simp [rejections, faults, outcome, ih]
      | error e => simp [rejections, faults, outcome, ih]

section Report

variable {s : VariableSettings} {resolve : Resolver} {nodes : List Node} {d : Declaration}

theorem declarationsAll_report (s : VariableSettings) (resolve : Resolver) (nodes : List Node) :
    Node.declarationsAll (report s resolve nodes).nodes =
      (Node.declarationsAll nodes).map fun d =>
        { d with value := replacedValue (report s resolve nodes).grouping.groups d.value } := by
  show Node.declarationsAll (substitute (report s resolve nodes).grouping.groups nodes) = _
  rw [substitute_eq, Node.declarationsAll_mapDeclarationsAll]

/-- A value that is replaced loses its only literal, which denotes a colour; any other value
keeps its literals. -/
theorem valueLiterals_replacedValue (resolve : Resolver) (valid : s.validate = .ok ())
    (member : d ∈ Node.declarationsAll nodes) :
    valueLiterals (replacedValue (report s resolve nodes).grouping.groups d.value) =
        valueLiterals d.value ∨
      valueLiterals (replacedValue (report s resolve nodes).grouping.groups d.value) = [] ∧
        valueLiterals d.value = [d.value] ∧ isRejected resolve d.value = false := by
  by_cases resolves : IsLiteral d.value ∧ ∃ color, resolve d.value = .ok color
  · obtain ⟨literal, color, denotes⟩ := resolves
    obtain ⟨i, -, replaced⟩ := replacedValue_of_resolves (s := s) member literal denotes
    right
    refine ⟨?_, valueLiterals_of_isLiteral literal, ?_⟩
    · rw [replaced]
      exact valueLiterals_reference valid i
    · simp [isRejected, denotes, Except.toOption]
  · left
    rw [replacedValue_of_not_resolves member resolves]

/-- A pass brings no literals into a sheet. -/
theorem literals_report_subset (valid : s.validate = .ok ()) :
    literals (report s resolve nodes).nodes ⊆ literals nodes := by
  intro t
  rw [literals, literals, declarationsAll_report, List.flatMap_map, List.mem_eraseDups,
    List.mem_eraseDups, List.mem_flatMap, List.mem_flatMap]
  rintro ⟨d, member, found⟩
  refine ⟨d, member, ?_⟩
  rcases valueLiterals_replacedValue resolve valid member with same | ⟨none, -, -⟩
  · rw [← same]
    exact found
  · rw [none] at found
    cases found

/-- A pass takes only literals out of a sheet that denote a colour. -/
theorem filter_literals_report (valid : s.validate = .ok ()) :
    (literals (report s resolve nodes).nodes).filter (isRejected resolve) =
      (literals nodes).filter (isRejected resolve) := by
  rw [literals, literals, filter_eraseDups, filter_eraseDups, declarationsAll_report,
    List.flatMap_map, List.filter_flatMap, List.filter_flatMap]
  congr 1
  apply List.flatMap_congr
  intro d member
  rcases valueLiterals_replacedValue resolve valid member with
    same | ⟨none, own, denotes⟩
  · rw [same]
  · rw [none, own]
    simp [denotes]

/-- What is left as a whole value is no literal, or denotes no colour. -/
theorem not_resolves_of_mem_report
    (member : d ∈ Node.declarationsAll (report s resolve nodes).nodes) :
    ¬(IsLiteral d.value ∧ ∃ color, resolve d.value = .ok color) := by
  rw [declarationsAll_report] at member
  obtain ⟨before, within, rfl⟩ := List.mem_map.mp member
  by_cases resolves : IsLiteral before.value ∧ ∃ color, resolve before.value = .ok color
  · obtain ⟨literal, color, denotes⟩ := resolves
    obtain ⟨i, -, replaced⟩ := replacedValue_of_resolves (s := s) within literal denotes
    rintro ⟨left, -⟩
    simp only [replaced] at left
    exact not_isLiteral_reference s i left
  · simp only [replacedValue_of_not_resolves within resolves]
    exact resolves

/-- A sheet whose whole values are no literals with a colour is left as it is. -/
theorem report_of_settled
    (settled : ∀ d ∈ Node.declarationsAll nodes,
      ¬(IsLiteral d.value ∧ ∃ color, resolve d.value = .ok color)) :
    (report s resolve nodes).substituted = 0 ∧ (report s resolve nodes).nodes = nodes := by
  have kept : ∀ d ∈ Node.declarationsAll nodes,
      replacedValue (report s resolve nodes).grouping.groups d.value = d.value := by
    intro d member
    exact replacedValue_of_not_resolves member (settled d member)
  constructor
  · show substitutions (report s resolve nodes).grouping.groups nodes = 0
    rw [substitutions, List.countP_eq_zero]
    intro d member found
    exact (replacedValue_ne_iff member).mpr found (kept d member)
  · show substitute (report s resolve nodes).grouping.groups nodes = nodes
    rw [substitute_eq]
    have same : Node.mapDeclarationsAll (fun d =>
        { d with value := replacedValue (report s resolve nodes).grouping.groups d.value })
          nodes = Node.mapDeclarationsAll id nodes := by
      apply mapDeclarationsAll_congr
      intro d member
      rw [kept d member]
      rfl
    rw [same]
    exact Node.mapDeclarationsAll_id nodes

end Report

/-- With usable settings, a pass over the sheet that a first pass leaves replaces nothing and
leaves the sheet as it is.  No reference holds a literal, so every literal that the second pass
finds was found by the first; and both reject the same literals, for the same reasons and in the
same order. -/
theorem deduplicate_again (s : VariableSettings) (resolve : Resolver) (nodes : List Node)
    (valid : s.validate = .ok ()) :
    ∃ first second : Report, deduplicate s resolve nodes = .ok first ∧
      deduplicate s resolve first.nodes = .ok second ∧
      second.substituted = 0 ∧ second.nodes = first.nodes ∧
      (∀ i, valueLiterals (s.reference i) = []) ∧
      second.tokens ⊆ first.tokens ∧
      rejections resolve second.tokens = rejections resolve first.tokens ∧
      second.grouping.rejected = first.grouping.rejected := by
  have rejected : rejections resolve (literals (report s resolve nodes).nodes) =
      rejections resolve (literals nodes) := by
    rw [← rejections_filter, filter_literals_report valid, rejections_filter]
  have settled : ∀ d ∈ Node.declarationsAll (report s resolve nodes).nodes,
      ¬(IsLiteral d.value ∧ ∃ color, resolve d.value = .ok color) :=
    fun d member => not_resolves_of_mem_report member
  obtain ⟨nothing, same⟩ := report_of_settled (s := s) settled
  refine ⟨report s resolve nodes, report s resolve (report s resolve nodes).nodes,
    deduplicate_of_valid valid _, deduplicate_of_valid valid _, nothing, same,
    valueLiterals_reference valid, literals_report_subset valid, rejected, ?_⟩
  show (buildGroups s resolve _).rejected = (buildGroups s resolve _).rejected
  rw [rejected_buildGroups, rejected_buildGroups, ← map_snd_rejections, ← map_snd_rejections,
    rejected]

/-- A resolver that knows hexadecimal colours only. -/
def hexOnly : Resolver := fun token =>
  if token.head? = some '#' then canonicalize token else .error (.unsupported token)

/-- A sheet with an embedded literal, one that is replaced and one that is rejected. -/
def mixedBox : List Node :=
  [.rule ['a'] [.declaration { property := "border".toList, value := "1px solid #fff".toList },
    .declaration { property := "color".toList, value := "#fff".toList },
    .declaration { property := "fill".toList, value := "rgb(1, 2, 3)".toList }]]

/-- The second pass finds nothing to replace and rejects what the first one rejected. -/
theorem deduplicate_again_mixedBox :
    ∃ first second : Report, deduplicate {} hexOnly mixedBox = .ok first ∧
      first.substituted = 1 ∧
      first.grouping.rejected = [.unsupported "rgb(1, 2, 3)".toList] ∧
      deduplicate {} hexOnly first.nodes = .ok second ∧
      second.substituted = 0 ∧ second.nodes = first.nodes ∧
      second.grouping.rejected = first.grouping.rejected := by
  have valid : VariableSettings.validate {} = .ok () := by decide
  obtain ⟨first, second, one, two, nothing, same, -, -, -, rejected⟩ :=
    deduplicate_again {} hexOnly mixedBox valid
  have outcome : deduplicate {} hexOnly mixedBox = .ok (report {} hexOnly mixedBox) := rfl
  obtain rfl := Except.ok.inj (outcome.symm.trans one)
  refine ⟨_, second, one, ?_, ?_, two, nothing, same, rejected⟩
  · decide +kernel
  · decide +kernel

end Swatch
