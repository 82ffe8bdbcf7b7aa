/-
Module: Swatch.Proofs.Replacement
Purpose: Deduplication replaces the values that are resolvable colour literals as a whole,
  each by the variable of its colour, and nothing else.
Main exports:
  canonicalize_text, VariableSettings.reference, replacedValue,
  deduplicate_replaces_exactly_literals
-/
import Swatch.Color.Resolve
import Swatch.Proofs.Grouping
import Swatch.Proofs.Literals
import Swatch.Variables.Substitute

namespace Swatch

/-!
### The text of a colour denotes it
-/

theorem isHexDigit_digitChar {n : Nat} (small : n < 16) :
    isHexDigit (Nat.digitChar n) = true := by
  have all : ∀ m : Fin 16, isHexDigit (Nat.digitChar m.val) = true := by decide
  exact all ⟨n, small⟩

/-- The two digits of a component spell it. -/
theorem channelOf_digits (c : Channel) :
    channelOf (Nat.digitChar (c.val / 16)) (Nat.digitChar (c.val % 16)) = c := by
  have all : ∀ c : Fin 256,
      channelOf (Nat.digitChar (c.val / 16)) (Nat.digitChar (c.val % 16)) = c := by
    decide +kernel
  exact all c

theorem isBlank_of_isHexDigit {c : Char} (digit : isHexDigit c = true) :
    isBlank c = false := by
  rw [isHexDigit_iff] at digit
  rw [Bool.eq_false_iff, ne_eq, isBlank_iff]
  omega

/-- A text without blanks at its ends is trimmed already. -/
theorem trim_of_ends {first last : Char} (middle : Text) (start : isBlank first = false)
    (stop : isBlank last = false) :
    trim (first :: (middle ++ [last])) = first :: (middle ++ [last]) := by
  rw [trim, trimStart_cons_of_not_blank start, trimEnd]
  simp [stop]

theorem canonicalize_text (color : Color) : canonicalize color.text = .ok color := by
  obtain ⟨red, green, blue⟩ := color
  have high (c : Channel) : isHexDigit (Nat.digitChar (c.val / 16)) = true :=
    isHexDigit_digitChar (by have := c.isLt; omega)
  have low (c : Channel) : isHexDigit (Nat.digitChar (c.val % 16)) = true :=
    isHexDigit_digitChar (by omega)
  have trimmed : trim (Color.text ⟨red, green, blue⟩) = Color.text ⟨red, green, blue⟩ :=
    trim_of_ends (channelText red ++ channelText green ++
      [Nat.digitChar (blue.val / 16)]) (by decide) (isBlank_of_isHexDigit (low blue))
  rw [canonicalize, trimmed]
  simp [Color.text, channelText, hexColor, high, low, channelOf_digits, Except.mapError]

/-!
### References
-/

/-- The value that refers to the variable with a number. -/
def VariableSettings.reference (s : VariableSettings) (index : Nat) : Text :=
  "var(".toList ++ s.name index ++ [')']

/-- Two references with the same text have the same number. -/
theorem reference_injective {s : VariableSettings} {i j : Nat}
    (same : s.reference i = s.reference j) : i = j := by
  delta VariableSettings.reference at same
  simp only [List.append_assoc, List.append_cancel_left_eq, List.append_cancel_right_eq]
    at same
  exact name_injective same

/-- A reference is no literal: it starts with another letter. -/
theorem not_isLiteral_reference (s : VariableSettings) (i : Nat) :
    ¬IsLiteral (s.reference i) := by
  have start : ∃ rest, s.reference i = 'v' :: rest := by
    delta VariableSettings.reference
    exact ⟨_, by simp; rfl⟩
  obtain ⟨rest, spelled⟩ := start
  rintro (⟨digits, hex, -⟩ | ⟨red, green, blue, -, -, -, rgb⟩)
  · rw [spelled] at hex
    simp at hex
  · rw [spelled] at rgb
    delta rgbText at rgb
    simp at rgb

/-!
### The replacement of a value
-/

/-- What a value becomes: the reference to its group, if it has one. -/
def replacedValue (groups : List Group) (value : Text) : Text :=
  match groupOf? groups value with
  | some g => g.reference
  | none => value

/-- A substitution changes the values of declarations and nothing else. -/
theorem substitute_eq (groups : List Group) (nodes : List Node) :
    substitute groups nodes =
      Node.mapDeclarationsAll (fun d => { d with value := replacedValue groups d.value })
        nodes := by
  have same : Declaration.substitute groups =
      fun d => { d with value := replacedValue groups d.value } := by
    funext d
    rw [Declaration.substitute, replacedValue]
    cases groupOf? groups d.value with
    | none => rfl
    | some g => rfl
  rw [substitute, same]

section Report

variable {s : VariableSettings} {resolve : Resolver} {nodes : List Node} {d : Declaration}

/-- The group of a whole value: that of its colour, if it is a literal with a colour. -/
theorem groupOf?_value_iff (member : d ∈ Node.declarationsAll nodes) {g : Group} :
    groupOf? (report s resolve nodes).grouping.groups d.value = some g ↔
      ∃ i color, (distinctColors resolve (literals nodes))[i]? = some color ∧
        g = ⟨i, color, tokensOf resolve (literals nodes) color, s.name i⟩ ∧
        IsLiteral d.value ∧ resolve d.value = .ok color := by
  rw [report, groupOf?_buildGroups]
  simp only [mem_literals_iff_isLiteral member]

/-- A literal with a colour becomes the reference to the variable of the colour. -/
theorem replacedValue_of_resolves (member : d ∈ Node.declarationsAll nodes)
    (literal : IsLiteral d.value) {color : Color} (denotes : resolve d.value = .ok color) :
    ∃ i, (distinctColors resolve (literals nodes))[i]? = some color ∧
      replacedValue (report s resolve nodes).grouping.groups d.value = s.reference i := by
  have met : color ∈ distinctColors resolve (literals nodes) :=
    mem_distinctColors.mpr
      ⟨d.value, (mem_literals_iff_isLiteral member).mpr literal, denotes⟩
  obtain ⟨i, place⟩ := List.mem_iff_getElem?.mp met
  have found := (groupOf?_value_iff (s := s) member).mpr
    ⟨i, color, place, rfl, literal, denotes⟩
  refine ⟨i, place, ?_⟩
  rw [replacedValue, found]
  rfl

/-- A value changes exactly if it has a group: no literal is a reference. -/
theorem replacedValue_ne_iff (member : d ∈ Node.declarationsAll nodes) :
    replacedValue (report s resolve nodes).grouping.groups d.value ≠ d.value ↔
      (groupOf? (report s resolve nodes).grouping.groups d.value).isSome := by
  cases found : groupOf? (report s resolve nodes).grouping.groups d.value with
  | none => simp [replacedValue, found]
  | some g =>
      obtain ⟨i, color, -, rfl, literal, -⟩ := (groupOf?_value_iff member).mp found
      simp only [replacedValue, found, Option.isSome_some, iff_true]
      intro same
      rw [← same] at literal
      exact not_isLiteral_reference s i literal

/-- Any other value stays. -/
theorem replacedValue_of_not_resolves (member : d ∈ Node.declarationsAll nodes)
    (other : ¬(IsLiteral d.value ∧ ∃ color, resolve d.value = .ok color)) :
    replacedValue (report s resolve nodes).grouping.groups d.value = d.value := by
  cases found : groupOf? (report s resolve nodes).grouping.groups d.value with
  | none => rw [replacedValue, found]
  | some g =>
      obtain ⟨i, color, -, -, literal, denotes⟩ := (groupOf?_value_iff member).mp found
      exact absurd ⟨literal, color, denotes⟩ other

/-- The group that a reference names is the one with its number. -/
theorem find?_reference {tokens : List Text} {i : Nat} {color : Color}
    (place : (distinctColors resolve tokens)[i]? = some color) :
    (buildGroups s resolve tokens).groups.find? (fun g => g.reference = s.reference i) =
      some ⟨i, color, tokensOf resolve tokens color, s.name i⟩ := by
  have exists_ : ((buildGroups s resolve tokens).groups.find?
      fun g => g.reference = s.reference i).isSome := by
    rw [List.find?_isSome]
    exact ⟨_, mem_buildGroups.mpr ⟨i, color, place, rfl⟩, decide_eq_true rfl⟩
  obtain ⟨g, found⟩ := Option.isSome_iff_exists.mp exists_
  obtain ⟨j, other, otherPlace, rfl⟩ :=
    mem_buildGroups.mp (List.mem_of_find?_eq_some found)
  have holds := List.find?_some found
  have named : s.reference j = s.reference i := of_decide_eq_true holds
  have same : j = i := reference_injective named
  subst same
  rw [place] at otherPlace
  cases otherPlace
  exact found

theorem declarationsAll_append (front back : List Node) :
    Node.declarationsAll (front ++ back) =
      Node.declarationsAll front ++ Node.declarationsAll back := by
  induction front with
  | nil => rfl
  | cons n front ih =>
      simp only [List.cons_append, Node.declarationsAll, ih, List.append_assoc]

/-- The root rule declares the variable of each group with the text of its colour. -/
theorem mem_declarations_rootRule {groups : List Group} {g : Group} (member : g ∈ groups) :
    { property := g.name, value := g.color.text } ∈
      (rootRule s groups).declarations := by
  have declared : { property := g.name, value := g.color.text } ∈
      Node.declarationsAll (g.declarations s) := by
    cases provenance : s.provenance with
    | false =>
        simp [Group.declarations, provenance, Node.declarationsAll, Node.declarations]
    | true =>
        simp [Group.declarations, provenance, Node.declarationsAll, Node.declarations]
  rw [rootRule, Node.declarations]
  obtain ⟨front, back, rfl⟩ := List.append_of_mem member
  rw [List.flatMap_append, List.flatMap_cons, declarationsAll_append,
    declarationsAll_append, List.mem_append, List.mem_append]
  exact Or.inr (Or.inl declared)

end Report

/-!
### Deduplication
-/

/-- With usable settings a deduplication succeeds and changes nothing but values.  A value
is replaced by the reference with number `i` exactly if it is a colour literal as a whole
and denotes the colour that is the `i`-th to be met; all other values stay.  The number of
replacements is reported.  The reference names the group of that colour, whose variable the
root rule declares with a text that denotes the colour. -/
theorem deduplicate_replaces_exactly_literals (s : VariableSettings) (resolve : Resolver)
    (nodes : List Node) (valid : s.validate = .ok ()) :
    ∃ r : Report, deduplicate s resolve nodes = .ok r ∧
      ∃ value : Text → Text,
        r.nodes = Node.mapDeclarationsAll (fun d => { d with value := value d.value }) nodes ∧
        r.substituted =
          (Node.declarationsAll nodes).countP (fun d => value d.value ≠ d.value) ∧
        ∀ d ∈ Node.declarationsAll nodes,
          (∀ i, (value d.value = s.reference i ∧ value d.value ≠ d.value) ↔
            IsLiteral d.value ∧ ∃ color, resolve d.value = .ok color ∧
              (distinctColors resolve (literals nodes))[i]? = some color) ∧
          (¬(IsLiteral d.value ∧ ∃ color, resolve d.value = .ok color) →
            value d.value = d.value) ∧
          (∀ color, IsLiteral d.value → resolve d.value = .ok color →
            ∃ g, r.grouping.groups.find? (fun g => g.reference = value d.value) = some g ∧
              g.color = color ∧ canonicalize g.color.text = .ok color ∧
              { property := g.name, value := g.color.text } ∈
                (rootRule s r.grouping.groups).declarations) := by
  refine ⟨report s resolve nodes, by rw [deduplicate, valid]; rfl,
    replacedValue (report s resolve nodes).grouping.groups, substitute_eq _ _, ?_, ?_⟩
  · refine List.countP_congr fun d member => ?_
    rw [decide_eq_true_iff]
    exact (replacedValue_ne_iff member).symm
  · intro d member
    refine ⟨?_, replacedValue_of_not_resolves member, ?_⟩
    · intro i
      constructor
      · rintro ⟨referred, changed⟩
        obtain ⟨g, found⟩ := Option.isSome_iff_exists.mp ((replacedValue_ne_iff member).mp changed)
        obtain ⟨j, color, place, rfl, literal, denotes⟩ := (groupOf?_value_iff member).mp found
        rw [replacedValue, found] at referred
        have same : j = i := reference_injective referred
        exact ⟨literal, color, denotes, same ▸ place⟩
      · rintro ⟨literal, color, denotes, place⟩
        obtain ⟨j, other, replaced⟩ :=
          replacedValue_of_resolves (s := s) member literal denotes
        rw [distinctColors_place_unique place other]
        refine ⟨replaced, fun same => ?_⟩
        rw [← same, replaced] at literal
        exact not_isLiteral_reference s j literal
    · intro color literal denotes
      obtain ⟨i, place, replaced⟩ :=
        replacedValue_of_resolves (s := s) member literal denotes
      have group := find?_reference (s := s) place
      rw [replaced]
      exact ⟨_, group, rfl, canonicalize_text color,
        mem_declarations_rootRule (List.mem_of_find?_eq_some group)⟩

/-- A sheet that spells one colour in two ways. -/
def spelledTwice : List Node :=
  [.rule ['a'] [.declaration { property := "color".toList, value := "#f00".toList },
    .declaration { property := "fill".toList, value := "rgb(255, 0, 0)".toList }]]

/-- Both spellings become the same reference. -/
theorem deduplicate_replaces_exactly_literals_spelledTwice :
    ∃ (r : Report) (value : Text → Text),
      deduplicate {} canonicalize spelledTwice = .ok r ∧
      r.nodes = Node.mapDeclarationsAll (fun d => { d with value := value d.value })
        spelledTwice ∧
      value "#f00".toList = VariableSettings.reference {} 0 ∧
      value "rgb(255, 0, 0)".toList = VariableSettings.reference {} 0 := by
  have valid : VariableSettings.validate {} = .ok () := by decide
  obtain ⟨r, done, value, replaced, -, exactly⟩ :=
    deduplicate_replaces_exactly_literals {} canonicalize spelledTwice valid
  have first : (distinctColors canonicalize (literals spelledTwice))[0]? =
      some ⟨255, 0, 0⟩ := by
    decide +kernel
  have hex := exactly { property := "color".toList, value := "#f00".toList }
    (by decide +kernel)
  have rgb := exactly { property := "fill".toList, value := "rgb(255, 0, 0)".toList }
    (by decide +kernel)
  refine ⟨r, value, done, replaced, ((hex.1 0).mpr ⟨?_, ⟨255, 0, 0⟩, ?_, first⟩).1,
    ((rgb.1 0).mpr ⟨?_, ⟨255, 0, 0⟩, ?_, first⟩).1⟩
  · exact Or.inl ⟨"f00".toList, rfl, Or.inl rfl, List.all_eq_true.mp (by decide)⟩
  · rfl
  · exact Or.inr ⟨"255".toList, ['0'], ['0'], by decide, by decide, by decide, rfl⟩
  · exact toOption_eq_some.mp (by decide +kernel)

end Swatch
