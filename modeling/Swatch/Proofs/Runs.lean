/-
Module: Swatch.Proofs.Runs
Purpose: Sorting reorders declarations inside their runs, by the bytes of their properties and
  without moving equal properties past each other.
Main exports:
  utf8, utf8_lt_iff, StablySorted, RunsSorted, runsSorted_sortDeclarations,
  sortDeclarations_within_runs
-/
import Mathlib.Data.List.Sort
import Mathlib.Tactic.SplitIfs
import Swatch.Proofs.Sorting

namespace Swatch

/-!
### The order of bytes

The first code point in which two texts differ decides about their order, and so does the first
byte.  The two agree because no encoding is the start of another and encodings keep the order of
code points.
-/

/-- The bytes of a text in UTF-8. -/
def utf8 (s : Text) : List UInt8 := s.flatMap String.utf8EncodeChar

theorem utf8_cons (c : Char) (s : Text) : utf8 (c :: s) = String.utf8EncodeChar c ++ utf8 s := rfl

theorem byte_cons_lt_iff {m n : Nat} (left : m < 256) (right : n < 256) (s t : List UInt8) :
    UInt8.ofNat m :: s < UInt8.ofNat n :: t ↔ m < n ∨ m = n ∧ s < t := by
  have first : (UInt8.ofNat m).toNat = m := UInt8.toNat_ofNat_of_lt left
  have second : (UInt8.ofNat n).toNat = n := UInt8.toNat_ofNat_of_lt right
  rw [List.cons_lt_cons_iff, UInt8.lt_iff_toNat_lt, ← UInt8.toNat_inj, first, second]

/-- The encodings of two code points differ in a byte, and the first such byte decides. -/
theorem utf8EncodeChar_lt {c d : Char} (smaller : c < d) (s t : List UInt8) :
    String.utf8EncodeChar c ++ s < String.utf8EncodeChar d ++ t := by
  have order : c.val.toNat < d.val.toNat := UInt32.lt_iff_toNat_lt.mp smaller
  have bound : d.val.toNat < 1114112 := by
    rcases d.valid with low | high
    · exact Nat.lt_trans low (by decide)
    · exact high.2
  -- the leading digits of a code point in base 64 are those of its leading part
  have digits (v : Nat) (small : v < 1114112) :
      v / 64 / 64 = v / 4096 ∧ v / 4096 / 64 = v / 262144 ∧ v / 262144 % 8 = v / 262144 := by
    refine ⟨Nat.div_div_eq_div_mul v 64 64, Nat.div_div_eq_div_mul v 4096 64, ?_⟩
    exact Nat.mod_eq_of_lt (by omega)
  have left := digits c.val.toNat (Nat.lt_trans order bound)
  have right := digits d.val.toNat bound
  unfold String.utf8EncodeChar
  simp only [left.2.2, right.2.2]
  -- an encoding has one to four bytes, and a longer one starts with a greater byte
  split_ifs <;> simp (disch := omega) only [List.cons_append, byte_cons_lt_iff] <;> omega

/-- What two byte lists have in common at the start does not decide about their order. -/
theorem append_lt_append_iff (front s t : List UInt8) : front ++ s < front ++ t ↔ s < t := by
  induction front with
  | nil => exact Iff.rfl
  | cons byte front ih =>
      have equal : ¬byte < byte := UInt8.lt_irrefl byte
      rw [List.cons_append, List.cons_append, List.cons_lt_cons_iff, ih]
      simp [equal]

/-- Texts are in the order of their bytes. -/
theorem utf8_lt_iff {a b : Text} : utf8 a < utf8 b ↔ a < b := by
  induction a generalizing b with
  | nil =>
      cases b with
      | nil => exact iff_of_false (List.not_lt_nil _) (List.not_lt_nil _)
      | cons d t =>
          have start : utf8 (d :: t) ≠ [] := by
            rw [utf8_cons]
            intro none
            have length := String.length_utf8EncodeChar d
            rw [(List.append_eq_nil_iff.mp none).1] at length
            exact Nat.ne_of_lt d.utf8Size_pos length
          obtain ⟨byte, bytes, spelled⟩ := List.exists_cons_of_ne_nil start
          rw [spelled]
          exact iff_of_true (List.nil_lt_cons byte bytes) (List.nil_lt_cons d t)
  | cons c s ih =>
      cases b with
      | nil => exact iff_of_false (List.not_lt_nil _) (List.not_lt_nil _)
      | cons d t =>
          rw [utf8_cons, utf8_cons, List.cons_lt_cons_iff]
          rcases Std.lt_trichotomy c d with smaller | rfl | greater
          · exact iff_of_true (utf8EncodeChar_lt smaller _ _) (.inl smaller)
          · have equal : ¬c < c := Char.lt_irrefl c
            rw [append_lt_append_iff, ih]
            simp only [equal, false_or, true_and]
          · have less := utf8EncodeChar_lt greater (utf8 t) (utf8 s)
            apply iff_of_false (List.lt_asymm less)
            rintro (smaller | ⟨rfl, -⟩)
            · exact Char.lt_asymm smaller greater
            · exact Char.lt_irrefl _ greater

/-!
### One run
-/

/-- The same declarations in the order of their properties, where declarations of one property
keep their order. -/
structure StablySorted (run sorted : List Declaration) : Prop where
  same : sorted.Perm run
  ordered : sorted.Pairwise fun d e => utf8 d.property ≤ utf8 e.property
  stable : ∀ property, sorted.filter (·.property = property) = run.filter (·.property = property)

/-- A declaration that may stand before another one in a sorted run. -/
def Declaration.Before (d e : Declaration) : Prop := ¬e.property < d.property

instance : DecidableRel Declaration.Before :=
  fun d e => inferInstanceAs (Decidable (¬e.property < d.property))

theorem before_iff {d e : Declaration} : d.Before e ↔ utf8 d.property ≤ utf8 e.property := by
  rw [Declaration.Before, ← utf8_lt_iff, List.not_lt]

instance : Std.Total Declaration.Before where
  total d e := by
    rw [before_iff, before_iff]
    exact List.le_total _ _

instance : IsTrans Declaration Declaration.Before where
  trans d e f := by
    rw [before_iff, before_iff, before_iff]
    exact List.le_trans

/-- The run with one more declaration in its place. -/
def inserted (d : Declaration) (run : List Declaration) : List Declaration :=
  run.orderedInsert Declaration.Before d

theorem filter_inserted (d : Declaration) (run : List Declaration) (property : Text) :
    (inserted d run).filter (·.property = property) =
      (d :: run).filter (·.property = property) := by
  induction run with
  | nil => rfl
  | cons e run ih =>
      rw [inserted, List.orderedInsert_cons]
      split
      next => rfl
      next behind =>
        have smaller : e.property < d.property := Decidable.not_not.mp behind
        have different : ¬(d.property = property ∧ e.property = property) := by
          rintro ⟨rfl, same⟩
          rw [same] at smaller
          exact List.lt_irrefl _ smaller
        rw [← inserted, List.filter_cons, ih]
        by_cases first : d.property = property
        · have second : e.property ≠ property := fun second => different ⟨first, second⟩
          simp [first, second]
        · simp [List.filter_cons, first]

/-- A sorted run stays one with another declaration in its place. -/
theorem StablySorted.insert {run sorted : List Declaration} (of : StablySorted run sorted)
    (d : Declaration) : StablySorted (d :: run) (inserted d sorted) where
  same := (List.perm_orderedInsert _ d sorted).trans (of.same.cons d)
  ordered := by
    have order : sorted.Pairwise Declaration.Before := of.ordered.imp before_iff.mpr
    exact (order.orderedInsert d sorted).imp before_iff.mp
  stable property := by
    rw [filter_inserted, List.filter_cons, List.filter_cons, of.stable]

theorem stablySorted_nil : StablySorted [] [] := ⟨.refl _, .nil, fun _ => rfl⟩

/-!
### All runs
-/

mutual

/-- An item that is no declaration, before and after the runs inside it are sorted: it has the
same kind and the same texts. -/
inductive Node.Kept : Node → Node → Prop where
  | rule (selector : Text) {children sorted : List Node} (inside : RunsSorted children sorted) :
      Node.Kept (.rule selector children) (.rule selector sorted)
  | atBlock (name params : Text) {children sorted : List Node}
      (inside : RunsSorted children sorted) :
      Node.Kept (.atBlock name params children) (.atBlock name params sorted)
  | atStatement (name params : Text) :
      Node.Kept (.atStatement name params) (.atStatement name params)
  | comment (text : Text) : Node.Kept (.comment text) (.comment text)

/-- Items before and after their runs are sorted, at every level.  The items are read as runs of
declarations, which may be empty, with one other item between each and the next: so every run
is as long as it can be, and what is no declaration stands where it stood. -/
inductive RunsSorted : List Node → List Node → Prop where
  | last {run sorted : List Declaration} (of : StablySorted run sorted) :
      RunsSorted (run.map .declaration) (sorted.map .declaration)
  | before {run sorted : List Declaration} {n n' : Node} {rest rest' : List Node}
      (of : StablySorted run sorted) (kept : n.Kept n') (more : RunsSorted rest rest') :
      RunsSorted (run.map .declaration ++ n :: rest) (sorted.map .declaration ++ n' :: rest')

end

/-- A declaration is put into the run at the start of the items. -/
theorem insertDeclaration_run (d : Declaration) (run : List Declaration) {rest : List Node}
    (apart : insertDeclaration d rest = .declaration d :: rest) :
    insertDeclaration d (run.map .declaration ++ rest) =
      (inserted d run).map .declaration ++ rest := by
  induction run with
  | nil => exact apart
  | cons e run ih =>
      rw [inserted, List.orderedInsert_cons, List.map_cons, List.cons_append, insertDeclaration]
      by_cases smaller : e.property < d.property
      · have behind : ¬d.Before e := fun before => before smaller
        rw [if_pos smaller, if_neg behind, ih]
        rfl
      · have before : d.Before e := smaller
        rw [if_neg smaller, if_pos before]
        rfl

/-- An item that is no declaration ends a run. -/
theorem Node.Kept.apart {n n' : Node} (kept : n.Kept n') (d : Declaration) (rest : List Node) :
    insertDeclaration d (n' :: rest) = .declaration d :: n' :: rest := by
  cases kept with
  | rule selector inside => rfl
  | atBlock name params inside => rfl
  | atStatement name params => rfl
  | comment text => rfl

/-- One more declaration belongs to the first run. -/
theorem RunsSorted.insert {nodes sorted : List Node} (runs : RunsSorted nodes sorted)
    (d : Declaration) : RunsSorted (.declaration d :: nodes) (insertDeclaration d sorted) := by
  cases runs with
  | @last run sorted of =>
      have place := @insertDeclaration_run d sorted [] rfl
      rw [List.append_nil, List.append_nil] at place
      rw [place]
      exact .last (of.insert d)
  | @before run sorted n n' rest rest' of kept more =>
      rw [insertDeclaration_run d sorted (kept.apart d rest')]
      exact .before (of.insert d) kept more

/-- Another item starts a new run behind it. -/
theorem RunsSorted.cons {n n' : Node} {nodes sorted : List Node} (kept : n.Kept n')
    (runs : RunsSorted nodes sorted) : RunsSorted (n :: nodes) (n' :: sorted) :=
  .before stablySorted_nil kept runs

mutual

/-- Sorting inside an item that is no declaration keeps the item. -/
theorem kept_sortItem (n : Node) : (∃ d, n = .declaration d) ∨ n.Kept (sortItem n) := by
  cases n with
  | rule selector children => exact .inr (.rule selector (runsSorted_sortDeclarations children))
  | atBlock name params children =>
      exact .inr (.atBlock name params (runsSorted_sortDeclarations children))
  | atStatement name params => exact .inr (.atStatement name params)
  | declaration d => exact .inl ⟨d, rfl⟩
  | comment text => exact .inr (.comment text)

/-- Sorting sorts each run in its place. -/
theorem runsSorted_sortDeclarations (nodes : List Node) :
    RunsSorted nodes (sortDeclarations nodes) := by
  cases nodes with
  | nil => exact .last stablySorted_nil
  | cons n rest =>
      have more := runsSorted_sortDeclarations rest
      rcases kept_sortItem n with ⟨d, rfl⟩ | kept
      · exact more.insert d
      · have ends : insertItem (sortItem n) (sortDeclarations rest) =
            sortItem n :: sortDeclarations rest := by
          cases kept <;> rfl
        rw [sortDeclarations, ends]
        exact .cons kept more

end

theorem RunsSorted.length : ∀ {nodes sorted : List Node}, RunsSorted nodes sorted →
    sorted.length = nodes.length
  | _, _, .last of => by
      rw [List.length_map, List.length_map, of.same.length_eq]
  | _, _, .before of kept more => by
      have run := of.same.length_eq
      have rest := more.length
      simp only [List.length_append, List.length_map, List.length_cons, run, rest]

/-- What is no declaration stands where it stood. -/
theorem RunsSorted.place : ∀ {nodes sorted : List Node}, RunsSorted nodes sorted →
    ∀ {i : Nat} {n : Node}, nodes[i]? = some n → (∀ d, n ≠ .declaration d) →
      ∃ n', sorted[i]? = some n' ∧ n.Kept n'
  | _, _, .last of, i, n, found, other => by
      obtain ⟨d, -, rfl⟩ := List.mem_map.mp (List.mem_of_getElem? found)
      exact absurd rfl (other d)
  | _, _, @RunsSorted.before run sorted m m' rest rest' of kept more, i, n, found, other => by
      have length : (sorted.map Node.declaration).length = (run.map Node.declaration).length := by
        rw [List.length_map, List.length_map, of.same.length_eq]
      by_cases inside : i < (run.map Node.declaration).length
      · rw [List.getElem?_append_left inside] at found
        obtain ⟨d, -, rfl⟩ := List.mem_map.mp (List.mem_of_getElem? found)
        exact absurd rfl (other d)
      · have behind := Nat.le_of_not_lt inside
        rw [List.getElem?_append_right behind] at found
        rw [List.getElem?_append_right (length.le.trans behind), length]
        cases place : i - (run.map Node.declaration).length with
        | zero =>
            rw [place] at found
            cases found
            exact ⟨m', rfl, kept⟩
        | succ k =>
            rw [place] at found
            exact more.place found other

/-- Sorting keeps the number of items and leaves each item that is no declaration where it
stands, with its texts; at every level, each run of declarations is sorted in its place by the
bytes of the properties, stably; and sorting again changes nothing. -/
theorem sortDeclarations_within_runs (nodes : List Node) :
    (sortDeclarations nodes).length = nodes.length ∧
      (∀ (i : Nat) (n : Node), nodes[i]? = some n → (∀ d, n ≠ .declaration d) →
        ∃ n', (sortDeclarations nodes)[i]? = some n' ∧ n.Kept n') ∧
      RunsSorted nodes (sortDeclarations nodes) ∧
      sortDeclarations (sortDeclarations nodes) = sortDeclarations nodes := by
  have runs := runsSorted_sortDeclarations nodes
  refine ⟨runs.length, ?_, runs, sortDeclarations_eq_self (sortedAll_sortDeclarations nodes)⟩
  intro i n found other
  exact runs.place found other

/-- A declaration, a comment and a run with two declarations of one property. -/
def mixedRuns : List Node :=
  [.declaration { property := ['c'], value := ['1'] }, .comment ['x'],
    .declaration { property := ['b'], value := ['2'] },
    .declaration { property := ['b'], value := ['1'] },
    .declaration { property := ['a'], value := ['3'] }]

/-- The comment keeps its place, and so do the two values in relation to each other. -/
theorem sortDeclarations_within_runs_mixedRuns :
    sortDeclarations mixedRuns =
        [.declaration { property := ['c'], value := ['1'] }, .comment ['x'],
          .declaration { property := ['a'], value := ['3'] },
          .declaration { property := ['b'], value := ['2'] },
          .declaration { property := ['b'], value := ['1'] }] ∧
      ∃ n, (sortDeclarations mixedRuns)[1]? = some n ∧ (Node.comment ['x']).Kept n := by
  refine ⟨by decide, ?_⟩
  obtain ⟨-, stays, -⟩ := sortDeclarations_within_runs mixedRuns
  apply stays 1 (.comment ['x']) rfl
  intro d same
  cases same

end Swatch
