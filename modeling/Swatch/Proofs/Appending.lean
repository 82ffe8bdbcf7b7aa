/-
Module: Swatch.Proofs.Appending
Purpose: Items at the end of a style sheet renumber nothing: what is found, grouped and replaced
  in the items before them stays as it is without them.
Main exports:
  literals_append, replacedValue_append, changedDeclarations, deduplicate_append
-/
import Swatch.Proofs.Partition
import Swatch.Proofs.Replacement

namespace Swatch

/-!
### Longer lists of literals

Every stage keeps the first occurrence of what it collects, so a longer list of texts only adds
at the end: to the colours, to the texts of one colour, and to what is rejected.
-/

section Longer

variable (resolve : Resolver) (tokens more : List Text)

theorem eraseDups_prefix {α : Type} [BEq α] [LawfulBEq α] (front back : List α) :
    front.eraseDups <+: (front ++ back).eraseDups := by
  rw [List.eraseDups_append]
  exact List.prefix_append _ _

theorem distinctColors_prefix :
    distinctColors resolve tokens <+: distinctColors resolve (tokens ++ more) := by
  rw [distinctColors, distinctColors, List.filterMap_append]
  exact eraseDups_prefix _ _

theorem tokensOf_prefix (color : Color) :
    tokensOf resolve tokens color <+: tokensOf resolve (tokens ++ more) color := by
  rw [tokensOf, tokensOf, List.filter_append]
  exact eraseDups_prefix _ _

theorem faults_append :
    faults resolve (tokens ++ more) = faults resolve tokens ++ faults resolve more :=
  List.filterMap_append

/-- A colour keeps its number. -/
theorem getElem?_distinctColors_append {i : Nat} {color : Color}
    (place : (distinctColors resolve tokens)[i]? = some color) :
    (distinctColors resolve (tokens ++ more))[i]? = some color := by
  obtain ⟨added, longer⟩ := distinctColors_prefix resolve tokens more
  obtain ⟨bound, -⟩ := List.getElem?_eq_some_iff.mp place
  rw [← longer, List.getElem?_append_left bound]
  exact place

/-- A group keeps its number, its colour and its name, and its first texts. -/
theorem getElem?_buildGroups_append (s : VariableSettings) {i : Nat} {g : Group}
    (place : (buildGroups s resolve tokens).groups[i]? = some g) :
    ∃ h, (buildGroups s resolve (tokens ++ more)).groups[i]? = some h ∧
      h.index = g.index ∧ h.color = g.color ∧ h.name = g.name ∧ g.tokens <+: h.tokens := by
  rw [getElem?_buildGroups, Option.map_eq_some_iff] at place
  obtain ⟨color, place, rfl⟩ := place
  refine ⟨⟨i, color, tokensOf resolve (tokens ++ more) color, s.name i⟩, ?_, rfl, rfl, rfl,
    tokensOf_prefix resolve tokens more color⟩
  rw [getElem?_buildGroups, getElem?_distinctColors_append resolve tokens more place]
  rfl

end Longer

/-!
### Longer sheets
-/

/-- Items at the end add their new literals at the end. -/
theorem literals_append (front back : List Node) :
    literals front <+: literals (front ++ back) := by
  rw [literals, literals, declarationsAll_append, List.flatMap_append]
  exact eraseDups_prefix _ _

mutual

theorem mapDeclarations_congr {f g : Declaration → Declaration} {n : Node}
    (same : ∀ d ∈ n.declarations, f d = g d) : n.mapDeclarations f = n.mapDeclarations g := by
  cases n with
  | rule selector children => exact congrArg (Node.rule selector) (mapDeclarationsAll_congr same)
  | atBlock name params children =>
      exact congrArg (Node.atBlock name params) (mapDeclarationsAll_congr same)
  | atStatement name params => rfl
  | declaration d => exact congrArg Node.declaration (same d (List.mem_singleton_self d))
  | comment text => rfl

/-- Only the declarations that occur count. -/
theorem mapDeclarationsAll_congr {f g : Declaration → Declaration} {nodes : List Node}
    (same : ∀ d ∈ Node.declarationsAll nodes, f d = g d) :
    Node.mapDeclarationsAll f nodes = Node.mapDeclarationsAll g nodes := by
  cases nodes with
  | nil => rfl
  | cons n rest =>
      obtain ⟨first, later⟩ := List.forall_mem_append.mp same
      rw [Node.mapDeclarationsAll, Node.mapDeclarationsAll, mapDeclarations_congr first,
        mapDeclarationsAll_congr later]

end

theorem mapDeclarationsAll_eq_map (f : Declaration → Declaration) (nodes : List Node) :
    Node.mapDeclarationsAll f nodes = nodes.map (Node.mapDeclarations f) := by
  induction nodes with
  | nil => rfl
  | cons n rest ih => rw [Node.mapDeclarationsAll, ih, List.map_cons]

/-- How many declarations of one list of items differ from those of another, place by
place. -/
def changedDeclarations (before after : List Node) : Nat :=
  ((Node.declarationsAll before).zip (Node.declarationsAll after)).countP fun p => p.1 ≠ p.2

/-- Where declarations are changed one by one, those that differ are counted. -/
theorem changedDeclarations_map (f : Declaration → Declaration) (nodes : List Node) :
    changedDeclarations nodes (Node.mapDeclarationsAll f nodes) =
      (Node.declarationsAll nodes).countP fun d => d ≠ f d := by
  rw [changedDeclarations, Node.declarationsAll_mapDeclarationsAll]
  induction Node.declarationsAll nodes with
  | nil => rfl
  | cons d rest ih =>
      rw [List.map_cons, List.zip_cons_cons, List.countP_cons, List.countP_cons, ih]

section Report

variable {s : VariableSettings} {resolve : Resolver} {front back : List Node}

/-- A value of the first items is replaced as without the items behind them: if it is a
literal, its colour was met among the first items, and keeps its number. -/
theorem replacedValue_append {d : Declaration} (member : d ∈ Node.declarationsAll front) :
    replacedValue (report s resolve (front ++ back)).grouping.groups d.value =
      replacedValue (report s resolve front).grouping.groups d.value := by
  have within : d ∈ Node.declarationsAll (front ++ back) := by
    rw [declarationsAll_append]
    exact List.mem_append_left _ member
  by_cases resolves : IsLiteral d.value ∧ ∃ color, resolve d.value = .ok color
  · obtain ⟨literal, color, denotes⟩ := resolves
    obtain ⟨i, place, first⟩ := replacedValue_of_resolves (s := s) member literal denotes
    obtain ⟨j, other, second⟩ := replacedValue_of_resolves (s := s) within literal denotes
    obtain ⟨more, longer⟩ := literals_append front back
    have kept := getElem?_distinctColors_append resolve (literals front) more place
    rw [longer] at kept
    rw [first, second, distinctColors_place_unique kept other]
  · rw [replacedValue_of_not_resolves member resolves,
      replacedValue_of_not_resolves within resolves]

/-- The first items are rewritten as without the items behind them. -/
theorem nodes_report_append :
    (report s resolve (front ++ back)).nodes =
      (report s resolve front).nodes ++
        substitute (report s resolve (front ++ back)).grouping.groups back := by
  have first : substitute (report s resolve (front ++ back)).grouping.groups front =
      substitute (report s resolve front).grouping.groups front := by
    rw [substitute_eq, substitute_eq]
    apply mapDeclarationsAll_congr
    intro d member
    rw [replacedValue_append member]
  have split : (report s resolve (front ++ back)).nodes =
      substitute (report s resolve (front ++ back)).grouping.groups front ++
        substitute (report s resolve (front ++ back)).grouping.groups back := by
    show substitute _ (front ++ back) = _
    rw [substitute, mapDeclarationsAll_eq_map, List.map_append, ← mapDeclarationsAll_eq_map,
      ← mapDeclarationsAll_eq_map]
    rfl
  rw [split, first]
  rfl

/-- Among some of the declarations, as many have a group as are changed. -/
theorem substitutions_eq_changed {whole part : List Node}
    (within : ∀ d ∈ Node.declarationsAll part, d ∈ Node.declarationsAll whole) :
    substitutions (report s resolve whole).grouping.groups part =
      changedDeclarations part (substitute (report s resolve whole).grouping.groups part) := by
  rw [substitute_eq, changedDeclarations_map]
  apply List.countP_congr
  intro d member
  rw [← replacedValue_ne_iff (within d member), decide_eq_true_iff]
  constructor
  · intro changed same
    exact changed (congrArg Declaration.value same).symm
  · intro changed same
    apply changed
    rw [same]

/-- Each part of a sheet adds the declarations that change in it. -/
theorem substituted_report_append :
    (report s resolve (front ++ back)).substituted =
      (report s resolve front).substituted +
        changedDeclarations back
          (substitute (report s resolve (front ++ back)).grouping.groups back) := by
  have all (d : Declaration) : d ∈ Node.declarationsAll (front ++ back) ↔
      d ∈ Node.declarationsAll front ∨ d ∈ Node.declarationsAll back := by
    rw [declarationsAll_append, List.mem_append]
  have first : substitutions (report s resolve (front ++ back)).grouping.groups front =
      (report s resolve front).substituted := by
    show _ = substitutions (report s resolve front).grouping.groups front
    apply List.countP_congr
    intro d member
    rw [← replacedValue_ne_iff ((all d).mpr (.inl member)), ← replacedValue_ne_iff member,
      replacedValue_append member]
  have second : substitutions (report s resolve (front ++ back)).grouping.groups back =
      changedDeclarations back
        (substitute (report s resolve (front ++ back)).grouping.groups back) :=
    substitutions_eq_changed fun d member => (all d).mpr (.inr member)
  rw [← first, ← second]
  show substitutions _ (front ++ back) = _
  rw [substitutions, declarationsAll_append, List.countP_append]
  rfl

theorem length_nodes_report (nodes : List Node) :
    (report s resolve nodes).nodes.length = nodes.length := by
  show (substitute _ nodes).length = nodes.length
  rw [substitute, mapDeclarationsAll_eq_map, List.length_map]

end Report

/-- A deduplication of a longer sheet goes on where that of its first items ends: with
literals, rejections and members of groups behind those of the first items, with the same
groups under the same numbers and names, with the first items rewritten in the same way, and
with as many replacements more as there are changed declarations in the items behind. -/
theorem deduplicate_append (s : VariableSettings) (resolve : Resolver) (front back : List Node)
    (valid : s.validate = .ok ()) :
    ∃ first whole : Report, deduplicate s resolve front = .ok first ∧
      deduplicate s resolve (front ++ back) = .ok whole ∧
      first.tokens <+: whole.tokens ∧
      first.grouping.rejected <+: whole.grouping.rejected ∧
      (∀ (i : Nat) (g : Group), first.grouping.groups[i]? = some g →
        ∃ h, whole.grouping.groups[i]? = some h ∧ h.index = g.index ∧ h.color = g.color ∧
          h.name = g.name ∧ g.tokens <+: h.tokens) ∧
      whole.nodes.take front.length = first.nodes ∧
      whole.substituted =
        first.substituted + changedDeclarations back (whole.nodes.drop front.length) := by
  obtain ⟨more, longer⟩ := literals_append front back
  have length : front.length = (report s resolve front).nodes.length :=
    (length_nodes_report front).symm
  refine ⟨report s resolve front, report s resolve (front ++ back), ?_, ?_, ⟨more, longer⟩,
    ?_, ?_, ?_, ?_⟩
  · rw [deduplicate, valid]
    rfl
  · rw [deduplicate, valid]
    rfl
  · show (buildGroups s resolve _).rejected <+: (buildGroups s resolve _).rejected
    rw [rejected_buildGroups, rejected_buildGroups, ← longer, faults_append]
    exact List.prefix_append _ _
  · intro i g place
    have kept := getElem?_buildGroups_append resolve (literals front) more s place
    rw [longer] at kept
    exact kept
  · rw [nodes_report_append, length, List.take_left]
  · rw [substituted_report_append, nodes_report_append, length, List.drop_left]

/-- A sheet with an embedded literal, and items that use its colour in another spelling. -/
def shadedBox : List Node :=
  [.rule ['a'] [.declaration { property := "border".toList, value := "1px solid #fff".toList },
    .declaration { property := "color".toList, value := "#123".toList }]]

/-- The number that the embedded literal has stays when the other spelling stands behind. -/
theorem deduplicate_append_shadedBox :
    ∃ first whole : Report, deduplicate {} canonicalize shadedBox = .ok first ∧
      deduplicate {} canonicalize (shadedBox ++ spelledTwice) = .ok whole ∧
      first.tokens <+: whole.tokens ∧
      whole.nodes.take 1 = first.nodes ∧ first.substituted = 1 ∧ whole.substituted = 3 := by
  have valid : VariableSettings.validate {} = .ok () := by decide
  obtain ⟨first, whole, one, two, tokens, -, -, nodes, count⟩ :=
    deduplicate_append {} canonicalize shadedBox spelledTwice valid
  have front : deduplicate {} canonicalize shadedBox =
      .ok (report {} canonicalize shadedBox) := rfl
  have both : deduplicate {} canonicalize (shadedBox ++ spelledTwice) =
      .ok (report {} canonicalize (shadedBox ++ spelledTwice)) := rfl
  obtain rfl := Except.ok.inj (front.symm.trans one)
  obtain rfl := Except.ok.inj (both.symm.trans two)
  refine ⟨_, _, one, two, tokens, nodes, by decide +kernel, ?_⟩
  rw [count]
  decide +kernel

end Swatch
