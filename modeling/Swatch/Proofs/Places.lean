/-
Module: Swatch.Proofs.Places
Purpose: Where paths lead in a tree of files, and what a new file changes there.
Main exports:
  segments_joined, FileTree.Leads, FileTree.read_eq_ok, FileTree.freePlace_eq_ok, FileTree.Gains,
  FileTree.create_gains, FileTree.Extends, FileTree.leads_defaultTarget
-/
import Swatch.Files.Tree
import Swatch.Proofs.Outcome
import Mathlib.Data.List.Basic
import Mathlib.Data.List.TakeWhile

namespace Swatch

/-!
### Segments
-/

theorem segments_ne_nil (path : Text) : segments path ≠ [] := by
  cases path with
  | nil => exact List.cons_ne_nil _ _
  | cons c s =>
      rw [segments]
      split
      next => exact List.cons_ne_nil _ _
      split
      next => exact List.cons_ne_nil _ _
      next => exact List.cons_ne_nil _ _

theorem segments_slash (s : Text) : segments ('/' :: s) = [] :: segments s := rfl

theorem segments_cons {c : Char} {s first : Text} {rest : List Text} (other : c ≠ '/')
    (parts : segments s = first :: rest) : segments (c :: s) = (c :: first) :: rest := by
  rw [segments, if_neg other, parts]

/-- A slash separates segments. -/
theorem segments_append_slash (front back : Text) :
    segments (front ++ '/' :: back) = segments front ++ segments back := by
  induction front with
  | nil => rfl
  | cons c front ih =>
      by_cases slash : c = '/'
      · subst slash
        rw [List.cons_append, segments_slash, segments_slash, ih, List.cons_append]
      · obtain ⟨first, rest, parts⟩ := List.exists_cons_of_ne_nil (segments_ne_nil front)
        have whole : segments (front ++ '/' :: back) = first :: (rest ++ segments back) := by
          rw [ih, parts, List.cons_append]
        rw [List.cons_append, segments_cons slash whole, segments_cons slash parts,
          List.cons_append]

theorem segments_of_noSlash {s : Text} (plain : '/' ∉ s) : segments s = [s] := by
  induction s with
  | nil => rfl
  | cons c s ih =>
      obtain ⟨other, rest⟩ := List.ne_and_not_mem_of_not_mem_cons plain
      exact segments_cons (Ne.symm other) (ih rest)

theorem noSlash_of_mem_segments {path part : Text} (member : part ∈ segments path) :
    '/' ∉ part := by
  induction path generalizing part with
  | nil =>
      rw [List.mem_singleton.mp member]
      exact List.not_mem_nil
  | cons c s ih =>
      by_cases slash : c = '/'
      · subst slash
        rcases List.mem_cons.mp member with rfl | later
        · exact List.not_mem_nil
        · exact ih later
      · obtain ⟨first, rest, parts⟩ := List.exists_cons_of_ne_nil (segments_ne_nil s)
        rw [segments_cons slash parts] at member
        rw [parts] at ih
        rcases List.mem_cons.mp member with rfl | later
        · exact List.not_mem_cons_of_ne_of_not_mem (Ne.symm slash) (ih List.mem_cons_self)
        · exact ih (List.mem_cons_of_mem _ later)

/-- Segments that are joined are found again. -/
theorem segments_joined {parts : List Text} (nonempty : parts ≠ [])
    (plain : ∀ part ∈ parts, '/' ∉ part) : segments (joined ['/'] parts) = parts := by
  induction parts with
  | nil => exact absurd rfl nonempty
  | cons part rest ih =>
      have first : '/' ∉ part := plain part List.mem_cons_self
      cases rest with
      | nil => exact segments_of_noSlash first
      | cons next rest =>
          have later := ih (List.cons_ne_nil next rest) fun p member =>
            plain p (List.mem_cons_of_mem part member)
          have spelled : joined ['/'] (part :: next :: rest) =
              part ++ '/' :: joined ['/'] (next :: rest) := by
            simp [joined]
          rw [spelled, segments_append_slash, segments_of_noSlash first, later]
          rfl

/-!
### Segments that lead nowhere else
-/

/-- A segment that names nothing. -/
def Nameless (part : Text) : Prop := part = [] ∨ part = ['.']

/-- What is dropped from a path names nothing. -/
theorem dropNameless_append (parts : List Text) :
    ∃ nameless, parts = dropNameless parts ++ nameless ∧ ∀ part ∈ nameless, Nameless part := by
  cases parts with
  | nil => exact ⟨[], rfl, nofun⟩
  | cons first rest =>
      have cut : rest = (rest.reverse.dropWhile (!isNaming false ·)).reverse ++
          (rest.reverse.takeWhile (!isNaming false ·)).reverse := by
        rw [← List.reverse_append, List.takeWhile_append_dropWhile, List.reverse_reverse]
      have dropped : ∀ part ∈ (rest.reverse.takeWhile (!isNaming false ·)).reverse,
          Nameless part := by
        intro part member
        have passed := List.mem_takeWhile_imp (List.mem_reverse.mp member)
        simpa [isNaming, Nameless, or_iff_not_imp_left] using passed
      rw [dropNameless]
      split
      next none =>
        rw [none, List.nil_append] at cut
        rw [← cut] at dropped
        split
        next => exact ⟨rest, rfl, dropped⟩
        next unnamed =>
          refine ⟨first :: rest, rfl, ?_⟩
          intro part member
          rcases List.mem_cons.mp member with rfl | later
          · left
            simpa [isNaming] using unnamed
          · exact dropped part later
      next kept named =>
        exact ⟨_, congrArg (first :: ·) cut, dropped⟩

/-- A path that ends in a name has nothing to drop. -/
theorem dropNameless_of_named {front : List Text} {last : Text}
    (names : FileTree.isStep last = false) :
    dropNameless (front ++ [last]) = front ++ [last] := by
  have naming (first : Bool) : isNaming first last = true := by
    simp only [FileTree.isStep, Bool.or_eq_false_iff, beq_eq_false_iff_ne] at names
    simp [isNaming, names.1.1, names.1.2]
  cases front with
  | nil => simp [dropNameless, naming]
  | cons first front => simp [dropNameless, naming]

namespace FileTree

variable {t t' : FileTree}

/-!
### Going along a path
-/

theorem walk_nameless {here : List Text} {parts : List Text}
    (nameless : ∀ part ∈ parts, Nameless part) : t.walk here parts = .ok here := by
  induction parts with
  | nil => rfl
  | cons part rest ih =>
      have skipped : part = [] ∨ part = ['.'] := nameless part List.mem_cons_self
      rw [walk, if_pos skipped]
      exact ih fun p member => nameless p (List.mem_cons_of_mem part member)

theorem walk_append (here : List Text) (front back : List Text) :
    t.walk here (front ++ back) = t.walk here front >>= fun there => t.walk there back := by
  induction front generalizing here with
  | nil => rfl
  | cons part front ih =>
      rw [List.cons_append, walk, walk]
      split
      next => exact ih here
      split
      next => exact ih here.dropLast
      split
      next => exact ih _
      next => rfl
      next => rfl

/-- A path leads as far without the segments at its end that name nothing. -/
theorem walk_dropNameless (here : List Text) (parts : List Text) :
    t.walk here (dropNameless parts) = t.walk here parts := by
  obtain ⟨nameless, cut, dropped⟩ := dropNameless_append parts
  have whole : t.walk here parts =
      t.walk here (dropNameless parts) >>= fun there => t.walk there nameless := by
    rw [← walk_append, ← cut]
  rw [whole]
  cases t.walk here (dropNameless parts) with
  | ok there => exact (walk_nameless dropped).symm
  | error e => rfl

/-- The place that a path leads to: its last segment is a name, and those before it lead to a
directory.  There need not be anything at the place. -/
def Leads (t : FileTree) (path : Text) (place : List Text) : Prop :=
  ∃ front last directory, segments path = front ++ [last] ∧ isStep last = false ∧
    t.walk [] front = .ok directory ∧ place = directory ++ [last]

/-- The segments of a path, the last one apart. -/
theorem exists_last (path : Text) : ∃ front last, segments path = front ++ [last] :=
  ⟨_, _, (List.dropLast_append_getLast (segments_ne_nil path)).symm⟩

section Path

variable {path last : Text} {front : List Text}

theorem leads_iff (parts : segments path = front ++ [last]) {place : List Text} :
    t.Leads path place ↔ isStep last = false ∧
      ∃ directory, t.walk [] front = .ok directory ∧ place = directory ++ [last] := by
  constructor
  · rintro ⟨front', last', directory, parts', names, walked, rfl⟩
    obtain ⟨rfl, same⟩ := List.append_inj' (parts.symm.trans parts') rfl
    obtain rfl := List.singleton_inj.mp same
    exact ⟨names, directory, walked, rfl⟩
  · rintro ⟨names, directory, walked, rfl⟩
    exact ⟨front, last, directory, parts, names, walked, rfl⟩

/-- A path leads to one place at most. -/
theorem Leads.unique {place other : List Text} (leads : t.Leads path place)
    (again : t.Leads path other) : place = other := by
  obtain ⟨front, last, parts⟩ := exists_last path
  obtain ⟨-, directory, walked, rfl⟩ := (leads_iff parts).mp leads
  obtain ⟨-, directory', walked', rfl⟩ := (leads_iff parts).mp again
  rw [Except.ok.inj (walked.symm.trans walked')]

theorem ne_nil_of_named (parts : segments path = front ++ [last])
    (names : isStep last = false) : path ≠ [] := by
  rintro rfl
  have whole : [] ++ [[]] = front ++ [last] := parts
  obtain ⟨-, same⟩ := List.append_inj' whole rfl
  obtain rfl := List.singleton_inj.mp same
  cases names

/-- Reading a path that ends in a name. -/
theorem read_named (parts : segments path = front ++ [last]) (names : isStep last = false) :
    t.read path = (do
      let directory ← t.walk [] front
      match t.find? (directory ++ [last]) with
      | some (.file (.text text)) => return text
      | some (.file (.bytes _)) => throw .notText
      | some .directory => throw .isDirectory
      | none => throw .notFound) := by
  have nonempty := ne_nil_of_named parts names
  unfold read
  simp only [parts, List.getLast?_concat, List.dropLast_concat, Option.getD_some, names,
    if_neg nonempty]
  rfl

/-- What ends in no name cannot be read. -/
theorem read_step (parts : segments path = front ++ [last]) (step : isStep last = true) :
    ∃ e, t.read path = .error e := by
  unfold read
  simp only [parts, List.getLast?_concat, Option.getD_some, step]
  split
  next => exact ⟨_, rfl⟩
  next =>
    cases t.walk [] (front ++ [last]) with
    | ok there => exact ⟨_, rfl⟩
    | error e => exact ⟨_, rfl⟩

/-- What is read is the text of the file that the path leads to. -/
theorem read_eq_ok {text : Text} :
    t.read path = .ok text ↔
      ∃ place, t.Leads path place ∧ t.find? place = some (.file (.text text)) := by
  obtain ⟨front, last, parts⟩ := exists_last path
  simp only [leads_iff parts]
  cases names : isStep last with
  | true =>
      obtain ⟨e, fails⟩ := read_step (t := t) parts names
      simp [fails]
  | false =>
      rw [read_named parts names]
      cases t.walk [] front with
      | error e => simp [bind, Except.bind]
      | ok directory =>
          simp only [bind, Except.bind, true_and, Except.ok.injEq, exists_eq_left', exists_eq_left]
          split
          next found => simp [found, pure, Except.pure]
          next found => simp [found, throw, throwThe, MonadExceptOf.throw]
          next found => simp [found, throw, throwThe, MonadExceptOf.throw]
          next found => simp [found, throw, throwThe, MonadExceptOf.throw]

/-- Creating at a path that ends in a name. -/
theorem freePlace_named (parts : segments path = front ++ [last]) (names : isStep last = false) :
    t.freePlace path = (do
      let directory ← t.walk [] front
      match t.find? (directory ++ [last]) with
      | some _ => throw .exists
      | none => return directory ++ [last]) := by
  have nonempty := ne_nil_of_named parts names
  have kept : ((front ++ [last]).reverse.dropWhile List.isEmpty).reverse = front ++ [last] := by
    have empty : last ≠ [] := by
      rintro rfl
      cases names
    simp [empty]
  unfold freePlace
  simp only [parts, kept, List.getLast?_concat, List.dropLast_concat, Option.getD_some, names,
    if_neg nonempty, ne_eq, not_true_eq_false, if_false]
  rfl

/-- Nothing can be created where a path ends in no name. -/
theorem freePlace_step (parts : segments path = front ++ [last]) (step : isStep last = true) :
    ∃ e, t.freePlace path = .error e := by
  unfold freePlace
  simp only [parts]
  split
  next => exact ⟨_, rfl⟩
  split
  next =>
    cases t.walk [] (front ++ [last]) with
    | ok there => exact ⟨_, rfl⟩
    | error e => exact ⟨_, rfl⟩
  next named =>
    -- the name stands before slashes at the end, so there are more segments than named ones
    have slashes : (front ++ [last]).length ≠
        ((front ++ [last]).reverse.dropWhile List.isEmpty).reverse.length := by
      intro same
      have whole : (front ++ [last]).reverse.dropWhile List.isEmpty = (front ++ [last]).reverse :=
        (List.dropWhile_sublist List.isEmpty).eq_of_length (by simpa using same.symm)
      rw [whole, List.reverse_reverse, List.getLast?_concat, Option.getD_some, step] at named
      exact named rfl
    simp only [if_pos slashes]
    cases t.walk [] ((front ++ [last]).reverse.dropWhile List.isEmpty).reverse.dropLast with
    | ok there => exact ⟨_, rfl⟩
    | error e => exact ⟨_, rfl⟩

/-- A new file goes to the place that the path leads to, if there is nothing yet. -/
theorem freePlace_eq_ok {place : List Text} :
    t.freePlace path = .ok place ↔ t.Leads path place ∧ t.find? place = none := by
  obtain ⟨front, last, parts⟩ := exists_last path
  simp only [leads_iff parts]
  cases names : isStep last with
  | true =>
      obtain ⟨e, fails⟩ := freePlace_step (t := t) parts names
      simp [fails]
  | false =>
      rw [freePlace_named parts names]
      cases t.walk [] front with
      | error e => simp [bind, Except.bind]
      | ok directory =>
          simp only [bind, Except.bind, true_and, Except.ok.injEq, exists_eq_left']
          split
          next entry taken =>
            constructor
            · nofun
            · rintro ⟨rfl, free⟩
              rw [taken] at free
              cases free
          next free =>
            constructor
            · intro created
              obtain rfl := Except.ok.inj created
              exact ⟨rfl, free⟩
            · rintro ⟨rfl, -⟩
              rfl

end Path

/-!
### New files
-/

/-- The second tree has one file more, at the place that a path leads to in the first one. -/
def Gains (t t' : FileTree) (path text : Text) : Prop :=
  ∃ place, t.Leads path place ∧ t.find? place = none ∧
    ∀ p, t'.find? p = if p = place then some (.file (.text text)) else t.find? p

/-- A path at whose place there is nothing yet. -/
def Free (t : FileTree) (path : Text) : Prop := ∃ place, t.Leads path place ∧ t.find? place = none

theorem find?_concat {place : List Text} (e : FileEntry) (inside : place ≠ [])
    (free : t.find? place = none) (p : List Text) :
    find? ⟨t.entries ++ [(place, e)]⟩ p = if p = place then some e else t.find? p := by
  have outside : place.isEmpty = false := List.isEmpty_eq_false_iff.mpr inside
  by_cases top : p.isEmpty = true
  · have other : p ≠ place := by
      rintro rfl
      rw [top] at outside
      cases outside
    rw [find?, find?, if_pos top, if_pos top, if_neg other]
  · rw [find?, find?, if_neg top, if_neg top, List.find?_append]
    by_cases here : p = place
    · subst here
      rw [find?, if_neg top, Option.map_eq_none_iff] at free
      rw [free, if_pos rfl]
      simp
    · have passed : [(place, e)].find? (·.1 = p) = none := by
        simp [Ne.symm here]
      rw [passed, Option.or_none, if_neg here]

/-- A file that is created is the only one that is new. -/
theorem create_gains {path text : Text} (created : t.create path text = .ok t') :
    t.Gains t' path text := by
  obtain ⟨place, found, result⟩ := bind_eq_ok.mp created
  obtain rfl := Except.ok.inj result
  obtain ⟨leads, free⟩ := freePlace_eq_ok.mp found
  refine ⟨place, leads, free, ?_⟩
  obtain ⟨front, last, directory, -, -, -, rfl⟩ := leads
  exact find?_concat _ (by simp) free

/-- A file can be created wherever there is nothing yet. -/
theorem create_isOk_iff {path : Text} (text : Text) :
    (∃ t', t.create path text = .ok t') ↔ t.Free path := by
  constructor
  · rintro ⟨t', created⟩
    obtain ⟨place, found, -⟩ := bind_eq_ok.mp created
    exact ⟨place, freePlace_eq_ok.mp found⟩
  · rintro ⟨place, free⟩
    exact ⟨_, bind_eq_ok.mpr ⟨place, freePlace_eq_ok.mpr free, rfl⟩⟩

/-- Where creating fails, there is something already, or the path leads nowhere. -/
theorem not_free_of_error {path text : Text} {e : FileError}
    (failed : t.create path text = .error e) : ¬t.Free path := by
  intro free
  obtain ⟨t', created⟩ := (create_isOk_iff text).mpr free
  rw [created] at failed
  cases failed

/-!
### Trees that keep what is there
-/

/-- Everything that is in the first tree is in the second one too, as it was. -/
def Extends (t t' : FileTree) : Prop :=
  ∀ place entry, t.find? place = some entry → t'.find? place = some entry

theorem Extends.refl (t : FileTree) : t.Extends t := fun _ _ found => found

theorem Extends.trans {t'' : FileTree} (first : t.Extends t') (second : t'.Extends t'') :
    t.Extends t'' :=
  fun place entry found => second place entry (first place entry found)

theorem Gains.keeps {path text : Text} (gains : t.Gains t' path text) : t.Extends t' := by
  intro p entry found
  obtain ⟨place, -, free, now⟩ := gains
  have other : p ≠ place := by
    rintro rfl
    rw [free] at found
    cases found
  rw [now, if_neg other]
  exact found

/-- A tree has no file more than itself. -/
theorem not_gains_self {path text : Text} : ¬t.Gains t path text := by
  rintro ⟨place, -, free, now⟩
  rw [now, if_pos rfl] at free
  cases free

/-- There is only one new file. -/
theorem Gains.unique {path text path' text' : Text} (gains : t.Gains t' path text)
    (again : t.Gains t' path' text') : text' = text := by
  obtain ⟨place, -, free, now⟩ := gains
  obtain ⟨place', -, -, now'⟩ := again
  have here : t'.find? place = some (.file (.text text)) := by rw [now, if_pos rfl]
  rw [now'] at here
  split at here
  next =>
    cases here
    rfl
  next =>
    rw [free] at here
    cases here

section Extends

variable {path : Text}

theorem Extends.walk (keeps : t.Extends t') {here there : List Text} {parts : List Text}
    (walked : t.walk here parts = .ok there) : t'.walk here parts = .ok there := by
  induction parts generalizing here with
  | nil => exact walked
  | cons part rest ih =>
      rw [FileTree.walk] at walked ⊢
      split
      next skipped =>
        rw [if_pos skipped] at walked
        exact ih walked
      next named =>
        rw [if_neg named] at walked
        split
        next up =>
          rw [if_pos up] at walked
          exact ih walked
        next down =>
          rw [if_neg down] at walked
          cases found : t.find? (here ++ [part]) with
          | none =>
              rw [found] at walked
              cases walked
          | some entry =>
              rw [found] at walked
              rw [keeps _ _ found]
              cases entry with
              | file content => cases walked
              | directory => exact ih walked

theorem Extends.leads (keeps : t.Extends t') {place : List Text} (leads : t.Leads path place) :
    t'.Leads path place := by
  obtain ⟨front, last, directory, parts, names, walked, rfl⟩ := leads
  exact ⟨front, last, directory, parts, names, keeps.walk walked, rfl⟩

/-- What could be read is read again. -/
theorem Extends.read (keeps : t.Extends t') {text : Text} (reads : t.read path = .ok text) :
    t'.read path = .ok text := by
  obtain ⟨place, leads, found⟩ := read_eq_ok.mp reads
  exact read_eq_ok.mpr ⟨place, keeps.leads leads, keeps _ _ found⟩

end Extends

/-!
### Beside the source
-/

/-- A name that is joined to a directory stands behind segments that lead to it. -/
theorem segments_join (t : FileTree) (directory : Text) {name : Text} (plain : '/' ∉ name) :
    ∃ outer, segments (join directory name) = outer ++ [name] ∧
      t.walk [] outer = t.walk [] (segments directory) := by
  have single : segments name = [name] := segments_of_noSlash plain
  rcases List.eq_nil_or_concat directory with rfl | ⟨front, c, rfl⟩
  · exact ⟨[], single, rfl⟩
  · rw [List.concat_eq_append]
    by_cases slash : c = '/'
    · subst slash
      have spelled : join (front ++ ['/']) name = front ++ '/' :: name := by
        simp [join]
      refine ⟨segments front, ?_, ?_⟩
      · rw [spelled, segments_append_slash, single]
      · rw [segments_append_slash, walk_append]
        cases t.walk [] (segments front) with
        | ok there => rfl
        | error e => rfl
    · have spelled : join (front ++ [c]) name = front ++ [c] ++ '/' :: name := by
        simp [join, slash]
      refine ⟨segments (front ++ [c]), ?_, rfl⟩
      rw [spelled, segments_append_slash, single]

/-- The parent of a path leads where all but its last segment lead. -/
theorem walk_parent (t : FileTree) {path last : Text} {front : List Text}
    (parts : segments path = front ++ [last]) (names : isStep last = false) :
    ∃ directory, parent? path = some directory ∧
      t.walk [] (segments directory) = t.walk [] front := by
  have named : dropNameless (segments path) = front ++ [last] := by
    rw [parts, dropNameless_of_named names]
  have nonempty : front ++ [last] ≠ [] := by simp
  have plain : ∀ part ∈ dropNameless front, '/' ∉ part := by
    intro part member
    obtain ⟨nameless, cut, -⟩ := dropNameless_append front
    have inside : part ∈ segments path := by
      rw [parts, cut]
      exact List.mem_append_left _ (List.mem_append_left _ member)
    exact noSlash_of_mem_segments inside
  rw [← walk_dropNameless [] front, parent?, named]
  split
  next absent => exact absurd absent nonempty
  next =>
    rw [List.dropLast_concat]
    split
    next outermost =>
      -- nothing is left of the path: its parent is the top, however it is written
      refine ⟨_, rfl, ?_⟩
      rw [outermost]
      split
      next => rfl
      next => rfl
    next inner =>
      exact ⟨_, rfl, by rw [segments_joined inner plain]⟩

/-- The default target is in the directory of the source. -/
theorem leads_defaultTarget {source name : Text} {directory : List Text}
    (leads : t.Leads source (directory ++ [name])) :
    t.Leads (defaultTarget source) (directory ++ [defaultName]) := by
  obtain ⟨front, last, there, parts, names, walked, same⟩ := leads
  obtain ⟨rfl, -⟩ := List.append_inj' same rfl
  obtain ⟨parent, holds, inside⟩ := walk_parent t parts names
  have plain : '/' ∉ defaultName := by decide
  obtain ⟨outer, spelled, led⟩ := segments_join t parent plain
  refine ⟨outer, defaultName, directory, ?_, rfl, ?_, rfl⟩
  · rw [defaultTarget, holds]
    exact spelled
  · rw [led, inside]
    exact walked

end FileTree

end Swatch
