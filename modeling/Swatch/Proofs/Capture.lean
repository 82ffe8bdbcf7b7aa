/-
Module: Swatch.Proofs.Capture
Purpose: When a style sheet captures the variables that are generated for it: exactly when one of
  its own declarations has the name of one.
Main exports:
  Group.declaration, declaring, declaring_rootRule, declaring_report, deduplicate_uncaptured_iff,
  deduplicate_captures
-/
import Swatch.Pipeline
import Swatch.Proofs.Partition
import Swatch.Proofs.Replacement

namespace Swatch

/-- The declarations of one name in a list of items. -/
def declaring (name : Text) (nodes : List Node) : List Declaration :=
  (Node.declarationsAll nodes).filter fun d => d.property = name

theorem declaring_append (name : Text) (front back : List Node) :
    declaring name (front ++ back) = declaring name front ++ declaring name back := by
  rw [declaring, declarationsAll_append, List.filter_append]
  rfl

theorem mem_declaring {name : Text} {nodes : List Node} {d : Declaration} :
    d ∈ declaring name nodes ↔ d ∈ Node.declarationsAll nodes ∧ d.property = name := by
  rw [declaring, List.mem_filter, decide_eq_true_iff]

theorem declaring_eq_nil_iff {name : Text} {nodes : List Node} :
    declaring name nodes = [] ↔ ∀ d ∈ Node.declarationsAll nodes, d.property ≠ name := by
  simp [declaring, List.filter_eq_nil_iff]

/-!
### The rule that declares the variables
-/

/-- The declaration of the variable of a group. -/
def Group.declaration (g : Group) : Declaration :=
  { property := g.name, value := g.color.text }

/-- A group has one declaration, with or without its literals as a comment. -/
theorem declarationsAll_group (s : VariableSettings) (g : Group) :
    Node.declarationsAll (g.declarations s) = [g.declaration] := by
  cases provenance : s.provenance with
  | false =>
      simp [Group.declarations, Group.declaration, provenance, Node.declarationsAll,
        Node.declarations]
  | true =>
      simp [Group.declarations, Group.declaration, provenance, Node.declarationsAll,
        Node.declarations]

/-- The rule declares the variables of the groups in their order, and nothing else. -/
theorem declarations_rootRule (s : VariableSettings) (groups : List Group) :
    (rootRule s groups).declarations = groups.map Group.declaration := by
  rw [rootRule, Node.declarations]
  induction groups with
  | nil => rfl
  | cons g rest ih =>
      rw [List.flatMap_cons, declarationsAll_append, declarationsAll_group, ih,
        List.map_cons, List.singleton_append]

/-- Among groups with different names, one group has the name of each. -/
theorem filter_name_of_nodup {groups : List Group} (distinct : (groups.map Group.name).Nodup)
    {g : Group} (member : g ∈ groups) : groups.filter (fun h => h.name = g.name) = [g] := by
  induction groups with
  | nil => cases member
  | cons first rest ih =>
      rw [List.map_cons, List.nodup_cons] at distinct
      obtain ⟨fresh, distinct⟩ := distinct
      rcases List.mem_cons.mp member with rfl | later
      · have others : ∀ h ∈ rest, ¬decide (h.name = g.name) = true := by
          intro h found same
          apply fresh
          rw [← of_decide_eq_true same]
          exact List.mem_map_of_mem found
        rw [List.filter_cons, if_pos (decide_eq_true rfl), List.filter_eq_nil_iff.mpr others]
      · have differs : ¬decide (first.name = g.name) = true := by
          intro same
          apply fresh
          rw [of_decide_eq_true same]
          exact List.mem_map_of_mem later
        rw [List.filter_cons, if_neg differs]
        exact ih distinct later

section Report

variable {s : VariableSettings} {resolve : Resolver} {nodes : List Node}

/-- The rule for the groups of a sheet declares the name of each group once. -/
theorem declaring_rootRule {g : Group}
    (member : g ∈ (report s resolve nodes).grouping.groups) :
    declaring g.name [rootRule s (report s resolve nodes).grouping.groups] =
      [g.declaration] := by
  have all : Node.declarationsAll [rootRule s (report s resolve nodes).grouping.groups] =
      (report s resolve nodes).grouping.groups.map Group.declaration := by
    rw [Node.declarationsAll, Node.declarationsAll, List.append_nil, declarations_rootRule]
  have named : ((fun d => decide (d.property = g.name)) ∘ Group.declaration) =
      fun h => decide (h.name = g.name) := rfl
  have alone : (report s resolve nodes).grouping.groups.filter (fun h => h.name = g.name) =
      [g] :=
    filter_name_of_nodup nodup_names member
  rw [declaring, all, List.filter_map, named, alone, List.map_singleton]

/-!
### The rewritten style sheet
-/

/-- Rewriting leaves the names of declarations as they are. -/
theorem declaring_substitute (groups : List Group) (name : Text) :
    declaring name (substitute groups nodes) =
      (declaring name nodes).map (Declaration.substitute groups) := by
  have named : ((fun d => decide (d.property = name)) ∘ Declaration.substitute groups) =
      fun d => decide (d.property = name) := by
    funext d
    have kept : (d.substitute groups).property = d.property := by
      rw [Declaration.substitute]
      split <;> rfl
    rw [Function.comp_apply, kept]
  rw [declaring, substitute, Node.declarationsAll_mapDeclarationsAll, List.filter_map, named]
  rfl

/-- The name of a group has its own declaration, and behind it those that the sheet has
already, each with its value replaced as everywhere. -/
theorem declaring_report {g : Group}
    (member : g ∈ (report s resolve nodes).grouping.groups) :
    declaring g.name (rootRule s (report s resolve nodes).grouping.groups ::
        (report s resolve nodes).nodes) =
      g.declaration :: (declaring g.name nodes).map
        (Declaration.substitute (report s resolve nodes).grouping.groups) := by
  rw [← List.singleton_append, declaring_append, declaring_rootRule member,
    List.singleton_append]
  exact congrArg (g.declaration :: ·) (declaring_substitute _ _)

/-- The group with a number has the colour with that number. -/
theorem color_of_place {i : Nat} {g : Group}
    (place : (report s resolve nodes).grouping.groups[i]? = some g) :
    (distinctColors resolve (literals nodes))[i]? = some g.color ∧ g.name = s.name i := by
  rw [report, getElem?_buildGroups, Option.map_eq_some_iff] at place
  obtain ⟨color, place, rfl⟩ := place
  exact ⟨place, rfl⟩

/-- A value refers to a variable after the rewriting if it did before, or if it was a literal
of the colour of the variable. -/
theorem replacedValue_eq_reference_iff {i : Nat} {g : Group} {d : Declaration}
    (place : (report s resolve nodes).grouping.groups[i]? = some g)
    (member : d ∈ Node.declarationsAll nodes) :
    replacedValue (report s resolve nodes).grouping.groups d.value = s.reference i ↔
      d.value = s.reference i ∨ (IsLiteral d.value ∧ resolve d.value = .ok g.color) := by
  obtain ⟨colored, -⟩ := color_of_place place
  by_cases resolves : IsLiteral d.value ∧ ∃ color, resolve d.value = .ok color
  · obtain ⟨literal, color, denotes⟩ := resolves
    obtain ⟨j, met, replaced⟩ := replacedValue_of_resolves (s := s) member literal denotes
    rw [replaced]
    constructor
    · intro same
      obtain rfl := reference_injective same
      obtain rfl := Option.some.inj (met.symm.trans colored)
      exact .inr ⟨literal, denotes⟩
    · rintro (refers | ⟨-, denotes'⟩)
      · rw [refers] at literal
        exact absurd literal (not_isLiteral_reference s i)
      · obtain rfl := Except.ok.inj (denotes.symm.trans denotes')
        rw [distinctColors_place_unique met colored]
  · rw [replacedValue_of_not_resolves member resolves]
    constructor
    · exact .inl
    · rintro (refers | ⟨literal, denotes⟩)
      · exact refers
      · exact absurd ⟨literal, _, denotes⟩ resolves

theorem value_substitute (groups : List Group) (d : Declaration) :
    (d.substitute groups).value = replacedValue groups d.value := by
  rw [Declaration.substitute, replacedValue]
  cases groupOf? groups d.value with
  | none => rfl
  | some g => rfl

/-- A declaration of a variable refers to this variable exactly if it is one of the sheet
that did so already, or whose value was a literal of the colour of the variable. -/
theorem refers_to_itself_iff {i : Nat} {g : Group}
    (place : (report s resolve nodes).grouping.groups[i]? = some g) :
    (∃ d ∈ declaring g.name (rootRule s (report s resolve nodes).grouping.groups ::
        (report s resolve nodes).nodes), d.value = s.reference i) ↔
      ∃ d ∈ declaring g.name nodes,
        d.value = s.reference i ∨ (IsLiteral d.value ∧ resolve d.value = .ok g.color) := by
  -- the value of the declaration in the rule is a literal, so it is no reference
  have colored : g.declaration.value ≠ s.reference i := by
    intro same
    have first := congrArg List.head? same
    simp [Group.declaration, Color.text, VariableSettings.reference] at first
  have values (d : Declaration) (member : d ∈ declaring g.name nodes) :=
    replacedValue_eq_reference_iff place (mem_declaring.mp member).1
  rw [declaring_report (List.mem_of_getElem? place)]
  constructor
  · rintro ⟨d, member, refers⟩
    rcases List.mem_cons.mp member with rfl | member
    · exact absurd refers colored
    · obtain ⟨before, found, rfl⟩ := List.mem_map.mp member
      rw [value_substitute] at refers
      exact ⟨before, found, (values before found).mp refers⟩
  · rintro ⟨d, member, cause⟩
    refine ⟨d.substitute _, List.mem_cons_of_mem _ (List.mem_map_of_mem member), ?_⟩
    rw [value_substitute]
    exact (values d member).mpr cause

end Report

/-- With usable settings a deduplication succeeds.  In the items that it gives, below the rule
for its groups, the variable of a group is declared once, by that rule and with the text of
its colour, exactly if the sheet had no declaration of that name before.  One of its
declarations refers to the variable itself exactly if the sheet declared that name with a
literal of that colour, or with that reference. -/
theorem deduplicate_uncaptured_iff (s : VariableSettings) (resolve : Resolver)
    (nodes : List Node) (valid : s.validate = .ok ()) :
    ∃ r : Report, deduplicate s resolve nodes = .ok r ∧
      ∀ (i : Nat) (g : Group), r.grouping.groups[i]? = some g →
        g.name = s.name i ∧
        declaring (s.name i) [rootRule s r.grouping.groups] = [g.declaration] ∧
        (declaring (s.name i) (rootRule s r.grouping.groups :: r.nodes) = [g.declaration] ↔
          ∀ d ∈ Node.declarationsAll nodes, d.property ≠ s.name i) ∧
        ((∃ d ∈ declaring (s.name i) (rootRule s r.grouping.groups :: r.nodes),
            d.value = s.reference i) ↔
          ∃ d ∈ Node.declarationsAll nodes, d.property = s.name i ∧
            (d.value = s.reference i ∨
              (IsLiteral d.value ∧ resolve d.value = .ok g.color))) := by
  refine ⟨report s resolve nodes, ?_, ?_⟩
  · rw [deduplicate, valid]
    rfl
  · intro i g place
    have member := List.mem_of_getElem? place
    obtain ⟨-, named⟩ := color_of_place place
    rw [← named]
    refine ⟨rfl, declaring_rootRule member, ?_, ?_⟩
    · rw [declaring_report member, List.cons_eq_cons, List.map_eq_nil_iff,
        declaring_eq_nil_iff]
      exact and_iff_right rfl
    · rw [refers_to_itself_iff place]
      simp only [mem_declaring, and_assoc]

/-- The variable of the one colour of a sheet is its own unless the sheet has a declaration of
its name. -/
theorem deduplicate_uncaptured_iff_spelledTwice :
    ∃ r : Report, deduplicate {} canonicalize spelledTwice = .ok r ∧
      declaring "--color-0".toList (rootRule {} r.grouping.groups :: r.nodes) =
        [{ property := "--color-0".toList, value := "#ff0000".toList }] := by
  have valid : VariableSettings.validate {} = .ok () := by decide
  obtain ⟨r, done, all⟩ := deduplicate_uncaptured_iff {} canonicalize spelledTwice valid
  have once : deduplicate {} canonicalize spelledTwice =
      .ok (report {} canonicalize spelledTwice) := rfl
  obtain rfl := Except.ok.inj (once.symm.trans done)
  obtain ⟨-, -, uncaptured, -⟩ := all 0
    ⟨0, ⟨255, 0, 0⟩, ["#f00".toList, "rgb(255, 0, 0)".toList], "--color-0".toList⟩
    (by decide +kernel)
  exact ⟨_, done, uncaptured.mpr (by decide +kernel)⟩

/-- A sheet that went through a deduplication before. -/
def redVariable : Text :=
  ":root \x7b\n  /* #f00 */\n  --color-0: #ff0000;\n\x7d\n".toList ++
    "\na \x7b\n  color: var(--color-0);\n\x7d\n".toList

/-- The sheet is what a run over one red literal gives.  It captures the variable of the next
run: the declaration that it has becomes a second one, which refers to itself. -/
theorem deduplicate_captures :
    (process {} canonicalize "a\x7bcolor:#f00\x7d".toList).toOption.map Outcome.css =
        some redVariable ∧
      ∃ (nodes : List Node) (r : Report), parse true redVariable = .ok nodes ∧
        deduplicate {} canonicalize nodes = .ok r ∧
        declaring "--color-0".toList (rootRule {} r.grouping.groups :: r.nodes) =
          [{ property := "--color-0".toList, value := "#ff0000".toList },
            { property := "--color-0".toList, value := "var(--color-0)".toList }] := by
  let nodes : List Node :=
    [.rule ":root".toList [.comment "#f00".toList,
        .declaration { property := "--color-0".toList, value := "#ff0000".toList }],
      .rule ['a'] [.declaration { property := "color".toList, value := "var(--color-0)".toList }]]
  have read : parse true redVariable = .ok nodes := toOption_eq_some.mp (by decide +kernel)
  refine ⟨by decide +kernel, nodes, report {} canonicalize nodes, read, rfl, ?_⟩
  decide +kernel

end Swatch
