/-
Module: Swatch.Proofs.Grouping
Purpose: What grouping computes: the colours in the order of first meeting, each with the
  distinct literals that denote it.
Main exports:
  distinctColors, tokensOf, getElem?_buildGroups, groupOf?_buildGroups, natural_injective
-/
import Mathlib.Data.List.Induction
import Mathlib.Data.List.Nodup
import Swatch.Proofs.Outcome
import Swatch.Variables.Group

namespace Swatch

/-!
### Lists without repetitions
-/

/-- An element at the end of a list is kept if it is new. -/
theorem eraseDups_concat {α : Type} [BEq α] [LawfulBEq α] (l : List α) (a : α) :
    (l ++ [a]).eraseDups = if l.contains a then l.eraseDups else l.eraseDups ++ [a] := by
  rw [List.eraseDups_append]
  by_cases met : a ∈ l <;> simp [List.removeAll, met, List.eraseDups_cons]

theorem nodup_eraseDups {α : Type} [BEq α] [LawfulBEq α] (l : List α) :
    l.eraseDups.Nodup := by
  induction l using List.reverseRecOn with
  | nil => simp
  | append_singleton l a ih =>
      rw [eraseDups_concat]
      split
      next => exact ih
      next new =>
        have absent : a ∉ l.eraseDups := by simpa [List.mem_eraseDups] using new
        exact List.nodup_append.mpr ⟨ih, by simp, by
          intro x member y same
          rw [List.mem_singleton.mp same]
          exact fun equal => absent (equal ▸ member)⟩

/-!
### The closed form of grouping
-/

/-- The colours that texts denote, each at the place where it is first met. -/
def distinctColors (resolve : Resolver) (tokens : List Text) : List Color :=
  (tokens.filterMap fun t => (resolve t).toOption).eraseDups

/-- The distinct texts that denote a colour, in the order in which they are met. -/
def tokensOf (resolve : Resolver) (tokens : List Text) (color : Color) : List Text :=
  (tokens.filter fun t => (resolve t).toOption == some color).eraseDups

theorem mem_distinctColors {resolve : Resolver} {tokens : List Text} {color : Color} :
    color ∈ distinctColors resolve tokens ↔ ∃ t ∈ tokens, resolve t = .ok color := by
  simp [distinctColors, List.mem_eraseDups, toOption_eq_some]

theorem mem_tokensOf {resolve : Resolver} {tokens : List Text} {color : Color} {t : Text} :
    t ∈ tokensOf resolve tokens color ↔ t ∈ tokens ∧ resolve t = .ok color := by
  simp [tokensOf, List.mem_eraseDups, toOption_eq_some]

/-- A text that denotes a colour adds the colour, if it is new. -/
theorem distinctColors_concat_ok {resolve : Resolver} {tokens : List Text} {t : Text}
    {color : Color} (denotes : resolve t = .ok color) :
    distinctColors resolve (tokens ++ [t]) =
      if color ∈ distinctColors resolve tokens then distinctColors resolve tokens
      else distinctColors resolve tokens ++ [color] := by
  have found : (resolve t).toOption = some color := toOption_eq_some.mpr denotes
  simp only [distinctColors, List.filterMap_append, List.filterMap_cons, found,
    List.filterMap_nil, eraseDups_concat, List.contains_iff_mem, List.mem_eraseDups]

/-- A text that denotes a colour joins the texts of that colour, if it is new. -/
theorem tokensOf_concat_ok {resolve : Resolver} {tokens : List Text} {t : Text}
    {color other : Color} (denotes : resolve t = .ok color) :
    tokensOf resolve (tokens ++ [t]) other =
      if other = color then
        if (tokensOf resolve tokens color).contains t then tokensOf resolve tokens color
        else tokensOf resolve tokens color ++ [t]
      else tokensOf resolve tokens other := by
  have found : (resolve t).toOption = some color := toOption_eq_some.mpr denotes
  by_cases same : other = color
  · subst same
    simp [tokensOf, List.filter_append, found, eraseDups_concat, List.mem_eraseDups]
  · have differs : ¬color = other := fun equal => same equal.symm
    simp [tokensOf, List.filter_append, found, same, differs]

/-- A text that denotes no colour changes nothing. -/
theorem distinctColors_concat_error {resolve : Resolver} {tokens : List Text} {t : Text}
    {e : ColorError} (fails : resolve t = .error e) :
    distinctColors resolve (tokens ++ [t]) = distinctColors resolve tokens := by
  simp [distinctColors, fails, Except.toOption]

theorem tokensOf_concat_error {resolve : Resolver} {tokens : List Text} {t : Text}
    {e : ColorError} (fails : resolve t = .error e) :
    tokensOf resolve (tokens ++ [t]) = tokensOf resolve tokens := by
  funext color
  simp [tokensOf, List.filter_append, fails, Except.toOption]

/-- The buckets after reading texts: one for each colour, with its texts. -/
def bucketsOf (resolve : Resolver) (tokens : List Text) : List Bucket :=
  (distinctColors resolve tokens).map fun color => ⟨color, tokensOf resolve tokens color⟩

/-- A colour that no bucket has gets one at the end. -/
theorem insertToken_of_not_mem {color : Color} {token : Text} {buckets : List Bucket}
    (absent : color ∉ buckets.map Bucket.color) :
    insertToken color token buckets = buckets ++ [⟨color, [token]⟩] := by
  induction buckets with
  | nil => rfl
  | cons b rest ih =>
      rw [List.map_cons, List.mem_cons, not_or] at absent
      rw [insertToken, if_neg (fun same => absent.1 same.symm), ih absent.2]
      rfl

/-- A colour that has a bucket changes that bucket only. -/
theorem insertToken_of_mem {color : Color} {token : Text} {colors : List Color}
    (texts : Color → List Text) (distinct : colors.Nodup) (member : color ∈ colors) :
    insertToken color token (colors.map fun c => ⟨c, texts c⟩) =
      colors.map fun c => ⟨c,
        if c = color then
          if (texts color).contains token then texts color else texts color ++ [token]
        else texts c⟩ := by
  induction colors with
  | nil => cases member
  | cons first rest ih =>
      obtain ⟨fresh, distinct⟩ := List.nodup_cons.mp distinct
      by_cases same : first = color
      · subst same
        have others : ∀ c ∈ rest, c ≠ first := fun c found equal => fresh (equal ▸ found)
        rw [List.map_cons, insertToken, if_pos rfl, List.map_cons, if_pos rfl]
        congr 1
        · split <;> rfl
        · exact List.map_congr_left fun c found => by rw [if_neg (others c found)]
      · have later : color ∈ rest :=
          (List.mem_cons.mp member).resolve_left fun equal => same equal.symm
        rw [List.map_cons, insertToken, if_neg same, List.map_cons, if_neg same,
          ih distinct later]

/-- One more text that denotes a colour goes to the bucket that the closed form gives it. -/
theorem insertToken_bucketsOf {resolve : Resolver} {tokens : List Text} {t : Text}
    {color : Color} (denotes : resolve t = .ok color) :
    insertToken color t (bucketsOf resolve tokens) = bucketsOf resolve (tokens ++ [t]) := by
  have colors : (bucketsOf resolve tokens).map Bucket.color =
      distinctColors resolve tokens := by
    simp [bucketsOf, Function.comp_def]
  by_cases met : color ∈ distinctColors resolve tokens
  · simp only [bucketsOf, distinctColors_concat_ok denotes, tokensOf_concat_ok denotes,
      if_pos met]
    exact insertToken_of_mem (tokensOf resolve tokens) (nodup_eraseDups _) met
  · have none : tokensOf resolve tokens color = [] := by
      rw [List.eq_nil_iff_forall_not_mem]
      intro u found
      exact met (mem_distinctColors.mpr ⟨u, mem_tokensOf.mp found⟩)
    have others : ∀ c ∈ distinctColors resolve tokens, c ≠ color :=
      fun c found equal => met (equal ▸ found)
    rw [insertToken_of_not_mem (colors ▸ met)]
    simp only [bucketsOf, distinctColors_concat_ok denotes, tokensOf_concat_ok denotes,
      if_neg met, List.map_append]
    congr 1
    · exact List.map_congr_left fun c found => by rw [if_neg (others c found)]
    · simp [none]

/-- Filling goes on where it stopped. -/
theorem fillBuckets_append (resolve : Resolver) (buckets : List Bucket)
    (front back : List Text) :
    (fillBuckets resolve buckets (front ++ back)).1 =
      (fillBuckets resolve (fillBuckets resolve buckets front).1 back).1 := by
  induction front generalizing buckets with
  | nil => rfl
  | cons t front ih =>
      cases outcome : resolve t with
      | ok color => simp only [List.cons_append, fillBuckets, outcome, ih]
      | error e => simp only [List.cons_append, fillBuckets, outcome, ih]

theorem fillBuckets_fst (resolve : Resolver) (tokens : List Text) :
    (fillBuckets resolve [] tokens).1 = bucketsOf resolve tokens := by
  induction tokens using List.reverseRecOn with
  | nil => rfl
  | append_singleton tokens t ih =>
      rw [fillBuckets_append, ih]
      cases outcome : resolve t with
      | ok color =>
          simp only [fillBuckets, outcome]
          exact insertToken_bucketsOf outcome
      | error e =>
          simp only [fillBuckets, outcome, bucketsOf, distinctColors_concat_error outcome,
            tokensOf_concat_error outcome]

/-!
### Groups
-/

theorem getElem?_numberBuckets (s : VariableSettings) (first i : Nat)
    (buckets : List Bucket) :
    (numberBuckets s first buckets)[i]? =
      buckets[i]?.map fun b => ⟨first + i, b.color, b.tokens, s.name (first + i)⟩ := by
  induction buckets generalizing first i with
  | nil => simp [numberBuckets]
  | cons b rest ih =>
      cases i with
      | zero => simp [numberBuckets]
      | succ i =>
          simp only [numberBuckets, List.getElem?_cons_succ, ih]
          rw [Nat.add_right_comm, Nat.add_assoc]

/-- The group with a number has the colour with that number, and all its literals. -/
theorem getElem?_buildGroups (s : VariableSettings) (resolve : Resolver)
    (tokens : List Text) (i : Nat) :
    (buildGroups s resolve tokens).groups[i]? =
      (distinctColors resolve tokens)[i]?.map fun color =>
        ⟨i, color, tokensOf resolve tokens color, s.name i⟩ := by
  simp only [buildGroups, getElem?_numberBuckets, fillBuckets_fst, bucketsOf,
    List.getElem?_map, Option.map_map, Nat.zero_add]
  rfl

theorem mem_buildGroups {s : VariableSettings} {resolve : Resolver} {tokens : List Text}
    {g : Group} :
    g ∈ (buildGroups s resolve tokens).groups ↔
      ∃ i color, (distinctColors resolve tokens)[i]? = some color ∧
        g = ⟨i, color, tokensOf resolve tokens color, s.name i⟩ := by
  simp only [List.mem_iff_getElem?, getElem?_buildGroups, Option.map_eq_some_iff]
  constructor
  · rintro ⟨i, color, place, rfl⟩
    exact ⟨i, color, place, rfl⟩
  · rintro ⟨i, color, place, rfl⟩
    exact ⟨i, color, place, rfl⟩

/-- A colour has one place only. -/
theorem distinctColors_place_unique {resolve : Resolver} {tokens : List Text} {i j : Nat}
    {color : Color} (one : (distinctColors resolve tokens)[i]? = some color)
    (two : (distinctColors resolve tokens)[j]? = some color) : i = j := by
  obtain ⟨hi, first⟩ := List.getElem?_eq_some_iff.mp one
  obtain ⟨hj, second⟩ := List.getElem?_eq_some_iff.mp two
  exact (List.Nodup.getElem_inj_iff (nodup_eraseDups _)).mp (first.trans second.symm)

/-- The group of a text is the one with the colour that the text denotes; a text that was
not met, or that denotes no colour, has none. -/
theorem groupOf?_buildGroups {s : VariableSettings} {resolve : Resolver}
    {tokens : List Text} {t : Text} {g : Group} :
    groupOf? (buildGroups s resolve tokens).groups t = some g ↔
      ∃ i color, (distinctColors resolve tokens)[i]? = some color ∧
        g = ⟨i, color, tokensOf resolve tokens color, s.name i⟩ ∧
        t ∈ tokens ∧ resolve t = .ok color := by
  have sound {h : Group}
      (found : groupOf? (buildGroups s resolve tokens).groups t = some h) :
      ∃ i color, (distinctColors resolve tokens)[i]? = some color ∧
        h = ⟨i, color, tokensOf resolve tokens color, s.name i⟩ ∧
        t ∈ tokens ∧ resolve t = .ok color := by
    have holds := List.find?_some found
    obtain ⟨i, color, place, rfl⟩ := mem_buildGroups.mp (List.mem_of_find?_eq_some found)
    exact ⟨i, color, place, rfl, mem_tokensOf.mp (List.contains_iff_mem.mp holds)⟩
  constructor
  · exact sound
  · rintro ⟨i, color, place, rfl, met, denotes⟩
    have some : (groupOf? (buildGroups s resolve tokens).groups t).isSome := by
      rw [groupOf?, List.find?_isSome]
      exact ⟨_, mem_buildGroups.mpr ⟨i, color, place, rfl⟩,
        List.contains_iff_mem.mpr (mem_tokensOf.mpr ⟨met, denotes⟩)⟩
    obtain ⟨h, found⟩ := Option.isSome_iff_exists.mp some
    obtain ⟨j, other, otherPlace, rfl, -, alsoDenotes⟩ := sound found
    have same : other = color := by
      rw [denotes] at alsoDenotes
      exact (Except.ok.inj alsoDenotes).symm
    subst same
    rw [distinctColors_place_unique place otherPlace]
    exact found

/-!
### Names
-/

/-- Two numbers with the same digits are the same. -/
theorem natural_injective {m n : Nat} (same : natural m = natural n) : m = n := by
  have value := congrArg (fun digits => Nat.ofDigitChars 10 digits 0) same
  simpa [natural] using value

/-- Two variables with the same name have the same number. -/
theorem name_injective {s : VariableSettings} {i j : Nat} (same : s.name i = s.name j) :
    i = j := by
  delta VariableSettings.name at same
  simp only [List.append_assoc, List.append_cancel_left_eq, List.cons.injEq, true_and] at same
  exact natural_injective same

end Swatch
