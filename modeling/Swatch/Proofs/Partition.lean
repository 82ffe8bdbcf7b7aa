/-
Module: Swatch.Proofs.Partition
Purpose: Grouping splits the literals that denote colours by their colour, in the order of first
  meeting, and rejects all others.
Main exports:
  faults, firstPlace, referenceTable?, Grouping.Partitions, partitions_buildGroups
-/
import Swatch.Color.Resolve
import Swatch.Proofs.Grouping

namespace Swatch

/-!
### Rejected literals
-/

/-- Why texts denote no colour, once for each of them, in order. -/
def faults (resolve : Resolver) (tokens : List Text) : List ColorError :=
  tokens.filterMap fun t =>
    match resolve t with
    | .ok _ => none
    | .error e => some e

/-- What is rejected does not depend on the buckets that are filled. -/
theorem fillBuckets_snd (resolve : Resolver) (buckets : List Bucket) (tokens : List Text) :
    (fillBuckets resolve buckets tokens).2 = faults resolve tokens := by
  induction tokens generalizing buckets with
  | nil => rfl
  | cons t rest ih =>
      cases outcome : resolve t with
      | ok color => simp only [fillBuckets, faults, List.filterMap_cons, outcome, ih]
      | error e => simp only [fillBuckets, faults, List.filterMap_cons, outcome, ih]

theorem rejected_buildGroups (s : VariableSettings) (resolve : Resolver) (tokens : List Text) :
    (buildGroups s resolve tokens).rejected = faults resolve tokens :=
  fillBuckets_snd resolve [] tokens

/-!
### The order of colours
-/

/-- The place of the first text that denotes a colour. -/
def firstPlace (resolve : Resolver) (tokens : List Text) (color : Color) : Nat :=
  tokens.findIdx fun t => (resolve t).toOption == some color

/-- A colour that is met has its first place among the texts. -/
theorem firstPlace_lt {resolve : Resolver} {tokens : List Text} {color : Color}
    (met : color ∈ distinctColors resolve tokens) :
    firstPlace resolve tokens color < tokens.length := by
  obtain ⟨t, member, denotes⟩ := mem_distinctColors.mp met
  apply List.findIdx_lt_length_of_exists
  refine ⟨t, member, ?_⟩
  simp [denotes, Except.toOption]

/-- Texts at the end do not change where a colour was first met. -/
theorem firstPlace_append {resolve : Resolver} {tokens : List Text} {color : Color}
    (met : color ∈ distinctColors resolve tokens) (more : List Text) :
    firstPlace resolve (tokens ++ more) color = firstPlace resolve tokens color := by
  rw [firstPlace, List.findIdx_append]
  exact if_pos (firstPlace_lt met)

/-- A colour that the last text brings is first met there. -/
theorem firstPlace_concat_new {resolve : Resolver} {tokens : List Text} {t : Text}
    {color : Color} (denotes : resolve t = .ok color)
    (fresh : color ∉ distinctColors resolve tokens) :
    firstPlace resolve (tokens ++ [t]) color = tokens.length := by
  have unmet : tokens.findIdx (fun u => (resolve u).toOption == some color) =
      tokens.length := by
    rw [List.findIdx_eq_length]
    intro u member
    rw [beq_eq_false_iff_ne]
    intro same
    exact fresh (mem_distinctColors.mpr ⟨u, member, toOption_eq_some.mp same⟩)
  rw [firstPlace, List.findIdx_append, unmet, if_neg (Nat.lt_irrefl _)]
  simp [List.findIdx_cons, denotes, Except.toOption]

/-- The colours stand in the order of their first places. -/
theorem pairwise_distinctColors (resolve : Resolver) (tokens : List Text) :
    (distinctColors resolve tokens).Pairwise fun a b =>
      firstPlace resolve tokens a < firstPlace resolve tokens b := by
  -- from the end: one more text leaves all places as they are and can only add the last one
  induction tokens using List.reverseRecOn with
  | nil => exact .nil
  | append_singleton tokens t ih =>
      have kept : (distinctColors resolve tokens).Pairwise fun a b =>
          firstPlace resolve (tokens ++ [t]) a < firstPlace resolve (tokens ++ [t]) b := by
        apply ih.imp_of_mem
        intro a b first second before
        rw [firstPlace_append first, firstPlace_append second]
        exact before
      cases outcome : resolve t with
      | error e =>
          rw [distinctColors_concat_error outcome]
          exact kept
      | ok color =>
          rw [distinctColors_concat_ok outcome]
          split
          next => exact kept
          next fresh =>
            apply List.pairwise_append.mpr
            refine ⟨kept, List.pairwise_singleton _ _, ?_⟩
            intro a first b last
            rw [List.mem_singleton.mp last, firstPlace_concat_new outcome fresh,
              firstPlace_append first]
            exact firstPlace_lt first

/-!
### The table of a substitution

A substitution looks values up in a table from literals to references.  The table is filled
one literal at a time, and a literal must not be there already.
-/

/-- All literals of groups, each with the reference to its group. -/
def referenceEntries (groups : List Group) : List (Text × Text) :=
  groups.flatMap fun g => g.tokens.map fun t => (t, g.reference)

/-- Enters literals one after the other.  There is no table if one of them is there
already. -/
def enterReferences (table : List (Text × Text)) :
    List (Text × Text) → Option (List (Text × Text))
  | [] => some table
  | entry :: rest =>
    if (table.lookup entry.1).isSome then none else enterReferences (entry :: table) rest

/-- The table of groups, if no literal is entered twice. -/
def referenceTable? (groups : List Group) : Option (List (Text × Text)) :=
  enterReferences [] (referenceEntries groups)

/-- Literals that are all different, and not in the table, are all entered. -/
theorem enterReferences_of_nodup {table entries : List (Text × Text)}
    (distinct : (entries.map Prod.fst).Nodup)
    (absent : ∀ entry ∈ entries, table.lookup entry.1 = none) :
    enterReferences table entries = some (entries.reverse ++ table) := by
  induction entries generalizing table with
  | nil => rfl
  | cons entry rest ih =>
      rw [List.map_cons, List.nodup_cons] at distinct
      obtain ⟨here, later⟩ := List.forall_mem_cons.mp absent
      have apart : ∀ other ∈ rest, (entry :: table).lookup other.1 = none := by
        intro other member
        have differs : other.1 ≠ entry.1 := by
          intro same
          exact distinct.1 (same ▸ List.mem_map_of_mem member)
        rw [List.lookup_cons, beq_false_of_ne differs]
        exact later other member
      rw [enterReferences, here, Option.isSome_none, if_neg Bool.false_ne_true,
        ih distinct.2 apart, List.reverse_cons, List.append_assoc, List.singleton_append]

/-- In a table without repeated literals every entry is found. -/
theorem lookup_eq_some_of_nodup {table : List (Text × Text)} {t r : Text}
    (distinct : (table.map Prod.fst).Nodup) (member : (t, r) ∈ table) :
    table.lookup t = some r := by
  induction table with
  | nil => cases member
  | cons entry rest ih =>
      rw [List.map_cons, List.nodup_cons] at distinct
      rw [List.lookup_cons]
      rcases List.mem_cons.mp member with rfl | later
      · rw [beq_self_eq_true]
      · have differs : t ≠ entry.1 := by
          intro same
          exact distinct.1 (same ▸ List.mem_map_of_mem later)
        rw [beq_false_of_ne differs]
        exact ih distinct.2 later

/-- What is not entered is not found. -/
theorem lookup_eq_none_of_notMem {table : List (Text × Text)} {t : Text}
    (absent : t ∉ table.map Prod.fst) : table.lookup t = none := by
  rw [List.lookup_eq_none_iff]
  intro entry member
  rw [bne_iff_ne]
  intro same
  exact absent (same ▸ List.mem_map_of_mem member)

/-!
### Partitions
-/

section Partition

variable (s : VariableSettings) (resolve : Resolver) (tokens : List Text)

/-- Groups that split the texts with a colour by their colour.  They are numbered and named
in the order in which their colours are first met, and the texts without a colour are
rejected. -/
structure Grouping.Partitions (g : Grouping) : Prop where
  /-- The number of a group is its place, and its name has that number. -/
  numbered : ∀ i group, g.groups[i]? = some group → group.index = i ∧ group.name = s.name i
  names : (g.groups.map Group.name).Nodup
  colors : (g.groups.map Group.color).Nodup
  /-- The colours stand in the order of the first texts that denote them. -/
  order : (g.groups.map Group.color).Pairwise fun a b =>
    firstPlace resolve tokens a < firstPlace resolve tokens b
  /-- A group holds the distinct texts of its colour, in the order of their first places. -/
  tokens_eq : ∀ group ∈ g.groups,
    group.tokens = (tokens.filter fun t => resolve t = .ok group.color).eraseDups
  /-- The texts that are in a group are those that denote a colour. -/
  held : ∀ t, (∃ group ∈ g.groups, t ∈ group.tokens) ↔
    t ∈ tokens ∧ ∃ color, resolve t = .ok color
  /-- A text is in one group at most, and this one is found. -/
  groupOf_eq : ∀ t group, g.groupOf t = some group ↔ group ∈ g.groups ∧ t ∈ group.tokens
  /-- Each text without a colour is rejected each time. -/
  rejected_eq : g.rejected = faults resolve tokens
  /-- No text is entered twice into the table of the groups, and the table finds the group of
  a text. -/
  table : ∃ table, referenceTable? g.groups = some table ∧
    ∀ t, table.lookup t = (g.groupOf t).map Group.reference

variable {s resolve tokens}

theorem map_color_buildGroups :
    (buildGroups s resolve tokens).groups.map Group.color = distinctColors resolve tokens := by
  apply List.ext_getElem?
  intro i
  rw [List.getElem?_map, getElem?_buildGroups, Option.map_map]
  exact Option.map_id'

/-- Groups at different places have different names. -/
theorem nodup_names : ((buildGroups s resolve tokens).groups.map Group.name).Nodup := by
  have named (k : Nat) (bound : k < (buildGroups s resolve tokens).groups.length) :
      (buildGroups s resolve tokens).groups[k].name = s.name k := by
    have place := List.getElem?_eq_getElem bound
    rw [getElem?_buildGroups, Option.map_eq_some_iff] at place
    obtain ⟨color, -, same⟩ := place
    rw [← same]
  rw [List.nodup_iff_injective_getElem]
  intro i j same
  simp only [List.getElem_map, named] at same
  exact Fin.ext (name_injective same)

/-- A text is in a group exactly if it was met and denotes the colour of the group. -/
theorem mem_tokens_of_mem {group : Group}
    (member : group ∈ (buildGroups s resolve tokens).groups) {t : Text} :
    t ∈ group.tokens ↔ t ∈ tokens ∧ resolve t = .ok group.color := by
  obtain ⟨i, color, -, rfl⟩ := mem_buildGroups.mp member
  exact mem_tokensOf

theorem groupOf_buildGroups {t : Text} {group : Group} :
    (buildGroups s resolve tokens).groupOf t = some group ↔
      group ∈ (buildGroups s resolve tokens).groups ∧ t ∈ group.tokens := by
  rw [Grouping.groupOf, groupOf?_buildGroups]
  constructor
  · rintro ⟨i, color, place, rfl, met, denotes⟩
    exact ⟨mem_buildGroups.mpr ⟨i, color, place, rfl⟩, mem_tokensOf.mpr ⟨met, denotes⟩⟩
  · rintro ⟨member, within⟩
    obtain ⟨met, denotes⟩ := (mem_tokens_of_mem member).mp within
    obtain ⟨i, color, place, rfl⟩ := mem_buildGroups.mp member
    exact ⟨i, color, place, rfl, met, denotes⟩

theorem mem_referenceEntries {groups : List Group} {t r : Text} :
    (t, r) ∈ referenceEntries groups ↔ ∃ g ∈ groups, t ∈ g.tokens ∧ r = g.reference := by
  simp only [referenceEntries, List.mem_flatMap, List.mem_map, Prod.mk.injEq]
  constructor
  · rintro ⟨g, member, u, within, rfl, rfl⟩
    exact ⟨g, member, within, rfl⟩
  · rintro ⟨g, member, within, rfl⟩
    exact ⟨g, member, t, within, rfl, rfl⟩

/-- The groups hold no text twice: neither does one group, nor do two. -/
theorem nodup_referenceEntries :
    ((referenceEntries (buildGroups s resolve tokens).groups).map Prod.fst).Nodup := by
  have flat : (referenceEntries (buildGroups s resolve tokens).groups).map Prod.fst =
      (buildGroups s resolve tokens).groups.flatMap Group.tokens := by
    simp [referenceEntries, List.map_flatMap, Function.comp_def]
  rw [flat, List.nodup_flatMap]
  constructor
  · intro group member
    obtain ⟨i, color, -, rfl⟩ := mem_buildGroups.mp member
    exact nodup_eraseDups _
  · have colors : (buildGroups s resolve tokens).groups.Pairwise
        fun a b => a.color ≠ b.color := by
      apply List.pairwise_map.mp
      rw [map_color_buildGroups]
      exact nodup_eraseDups _
    apply colors.imp_of_mem
    intro a b first second differ t inFirst inSecond
    have one := ((mem_tokens_of_mem first).mp inFirst).2
    have two := ((mem_tokens_of_mem second).mp inSecond).2
    exact differ (Except.ok.inj (one.symm.trans two))

/-- The groups have a table, and it finds the reference to the group of each text. -/
theorem referenceTable?_buildGroups :
    ∃ table, referenceTable? (buildGroups s resolve tokens).groups = some table ∧
      ∀ t, table.lookup t =
        ((buildGroups s resolve tokens).groupOf t).map Group.reference := by
  let entries := referenceEntries (buildGroups s resolve tokens).groups
  have distinct : (entries.map Prod.fst).Nodup := nodup_referenceEntries
  have entered : enterReferences [] entries = some (entries.reverse ++ []) :=
    enterReferences_of_nodup distinct fun _ _ => rfl
  rw [List.append_nil] at entered
  refine ⟨entries.reverse, entered, ?_⟩
  intro t
  cases found : (buildGroups s resolve tokens).groupOf t with
  | some group =>
      obtain ⟨member, within⟩ := groupOf_buildGroups.mp found
      apply lookup_eq_some_of_nodup
      · rw [List.map_reverse]
        exact List.nodup_reverse.mpr distinct
      · exact List.mem_reverse.mpr (mem_referenceEntries.mpr ⟨group, member, within, rfl⟩)
  | none =>
      apply lookup_eq_none_of_notMem
      intro present
      obtain ⟨⟨u, r⟩, entry, rfl⟩ := List.mem_map.mp present
      obtain ⟨group, member, within, -⟩ := mem_referenceEntries.mp (List.mem_reverse.mp entry)
      rw [groupOf_buildGroups.mpr ⟨member, within⟩] at found
      cases found

end Partition

/-- Grouping partitions the texts that denote a colour, whatever the settings, the resolver
and the texts are. -/
theorem partitions_buildGroups (s : VariableSettings) (resolve : Resolver)
    (tokens : List Text) :
    (buildGroups s resolve tokens).Partitions s resolve tokens where
  numbered := by
    intro i group place
    rw [getElem?_buildGroups, Option.map_eq_some_iff] at place
    obtain ⟨color, -, rfl⟩ := place
    exact ⟨rfl, rfl⟩
  names := nodup_names
  colors := by
    rw [map_color_buildGroups]
    exact nodup_eraseDups _
  order := by
    rw [map_color_buildGroups]
    exact pairwise_distinctColors resolve tokens
  tokens_eq := by
    intro group member
    obtain ⟨i, color, -, rfl⟩ := mem_buildGroups.mp member
    apply congrArg List.eraseDups
    apply List.filter_congr
    intro t _
    rw [Bool.eq_iff_iff, beq_iff_eq, toOption_eq_some, decide_eq_true_iff]
  held := by
    intro t
    constructor
    · rintro ⟨group, member, within⟩
      obtain ⟨met, denotes⟩ := (mem_tokens_of_mem member).mp within
      exact ⟨met, group.color, denotes⟩
    · rintro ⟨met, color, denotes⟩
      obtain ⟨i, place⟩ :=
        List.mem_iff_getElem?.mp (mem_distinctColors.mpr ⟨t, met, denotes⟩)
      exact ⟨_, mem_buildGroups.mpr ⟨i, color, place, rfl⟩,
        mem_tokensOf.mpr ⟨met, denotes⟩⟩
  groupOf_eq := fun _ _ => groupOf_buildGroups
  rejected_eq := rejected_buildGroups s resolve tokens
  table := referenceTable?_buildGroups

end Swatch
