/-
Module: Swatch.Proofs.Characters
Purpose: Character classes as ranges of code points, runs of one class, and trimming.
Main exports:
  isDigit_iff, isHexDigit_iff, isSpace_iff, isBlank_iff, Stops, takeWhile_run, dropWhile_run,
  trim_padded, trim_isInfix, trim_trim
-/
import Mathlib.Data.List.TakeWhile
import Swatch.Text.Basic

namespace Swatch

/-!
### Classes as ranges

Once every class is a range of code points, two classes are compared by arithmetic.
-/

theorem isDigit_iff {c : Char} : c.isDigit = true ↔ 48 ≤ c.toNat ∧ c.toNat ≤ 57 :=
  Char.isDigit_iff_toNat

theorem isUpper_iff {c : Char} : c.isUpper = true ↔ 65 ≤ c.toNat ∧ c.toNat ≤ 90 := by
  have bounds : c.isUpper = decide (65 ≤ c.val ∧ c.val ≤ 90) := rfl
  simp [bounds, UInt32.le_iff_toNat_le]

theorem isLower_iff {c : Char} : c.isLower = true ↔ 97 ≤ c.toNat ∧ c.toNat ≤ 122 := by
  have bounds : c.isLower = (decide (97 ≤ c.val) && decide (c.val ≤ 122)) := rfl
  simp [bounds, UInt32.le_iff_toNat_le]

theorem isAlpha_iff {c : Char} :
    c.isAlpha = true ↔
      (65 ≤ c.toNat ∧ c.toNat ≤ 90) ∨ (97 ≤ c.toNat ∧ c.toNat ≤ 122) := by
  have either : c.isAlpha = (c.isUpper || c.isLower) := rfl
  rw [either, Bool.or_eq_true, isUpper_iff, isLower_iff]

theorem isHexDigit_iff {c : Char} :
    isHexDigit c = true ↔
      (48 ≤ c.toNat ∧ c.toNat ≤ 57) ∨ (97 ≤ c.toNat ∧ c.toNat ≤ 102) ∨
        (65 ≤ c.toNat ∧ c.toNat ≤ 70) := by
  simp [isHexDigit, isDigit_iff, Char.le_def, UInt32.le_iff_toNat_le, or_assoc]

theorem isSpace_iff {c : Char} :
    isSpace c = true ↔
      c.toNat = 32 ∨ c.toNat = 9 ∨ c.toNat = 10 ∨ c.toNat = 13 ∨ c.toNat = 12 := by
  simp [isSpace, isNewline, ← Char.toNat_inj, or_assoc]

theorem isBlank_iff {c : Char} :
    isBlank c = true ↔
      (9 ≤ c.toNat ∧ c.toNat ≤ 13) ∨ c.toNat = 32 ∨ c.toNat = 133 ∨ c.toNat = 160 ∨
        c.toNat = 5760 ∨ (8192 ≤ c.toNat ∧ c.toNat ≤ 8202) ∨ c.toNat = 8232 ∨
        c.toNat = 8233 ∨ c.toNat = 8239 ∨ c.toNat = 8287 ∨ c.toNat = 12288 := by
  simp [isBlank, or_assoc]

/-- A digit is no blank. -/
theorem isBlank_of_isDigit {c : Char} (digit : c.isDigit = true) : isBlank c = false := by
  rw [isDigit_iff] at digit
  rw [Bool.eq_false_iff, ne_eq, isBlank_iff]
  omega

/-!
### Runs
-/

/-- The text does not start with a character of the class: a run that ends here is not
continued. -/
def Stops (p : Char → Bool) (s : Text) : Prop := s.head?.any p = false

theorem stops_nil (p : Char → Bool) : Stops p [] := rfl

theorem stops_cons {p : Char → Bool} {c : Char} {s : Text} :
    Stops p (c :: s) ↔ p c = false := by
  simp [Stops]

theorem stops_append {p : Char → Bool} {s t : Text} (front : Stops p s) (back : Stops p t) :
    Stops p (s ++ t) := by
  cases s with
  | nil => exact back
  | cons c s => exact front

theorem stops_of_forall {p : Char → Bool} {s : Text} (all : ∀ c ∈ s, p c = false) :
    Stops p s := by
  cases s with
  | nil => exact stops_nil p
  | cons c s => exact stops_cons.mpr (all c List.mem_cons_self)

/-- Where no run starts, nothing is dropped. -/
theorem dropWhile_of_stops {p : Char → Bool} {s : Text} (stops : Stops p s) :
    s.dropWhile p = s := by
  cases s with
  | nil => rfl
  | cons c s =>
      have outside : ¬p c = true := by simp [stops_cons.mp stops]
      rw [List.dropWhile_cons_of_neg outside]

/-- A run that is not continued is taken as a whole. -/
theorem takeWhile_run {p : Char → Bool} {run rest : Text} (all : ∀ c ∈ run, p c = true)
    (stops : Stops p rest) : (run ++ rest).takeWhile p = run := by
  rw [List.takeWhile_append_of_pos all]
  cases rest with
  | nil => simp
  | cons c rest =>
      have fails : ¬p c = true := by simp [stops_cons.mp stops]
      rw [List.takeWhile_cons_of_neg fails, List.append_nil]

/-- A run that is not continued is dropped as a whole. -/
theorem dropWhile_run {p : Char → Bool} {run rest : Text} (all : ∀ c ∈ run, p c = true)
    (stops : Stops p rest) : (run ++ rest).dropWhile p = rest := by
  rw [List.dropWhile_append_of_pos all, dropWhile_of_stops stops]

/-- A run ends where its class does. -/
theorem stops_dropWhile (p : Char → Bool) (s : Text) : Stops p (s.dropWhile p) := by
  induction s with
  | nil => exact stops_nil p
  | cons c s ih =>
      rw [List.dropWhile_cons]
      split
      next => exact ih
      next outside => exact stops_cons.mpr (Bool.eq_false_iff.mpr outside)

/-!
### Blanks around a text
-/

/-- Blanks in front of a text do not count. -/
theorem trimStart_append {front : Text} (blank : ∀ c ∈ front, isBlank c = true) (s : Text) :
    trimStart (front ++ s) = trimStart s := by
  rw [trimStart, List.dropWhile_append_of_pos blank]
  rfl

theorem trimEnd_append {back : Text} (blank : ∀ c ∈ back, isBlank c = true) (s : Text) :
    trimEnd (s ++ back) = trimEnd s := by
  have behind : ∀ c ∈ back.reverse, isBlank c = true := by
    intro c member
    exact blank c (List.mem_reverse.mp member)
  rw [trimEnd, List.reverse_append, List.dropWhile_append_of_pos behind]
  rfl

/-- Blanks around a text do not count. -/
theorem trim_padded {front back : Text} (before : ∀ c ∈ front, isBlank c = true)
    (behind : ∀ c ∈ back, isBlank c = true) (s : Text) :
    trim (front ++ (s ++ back)) = trim s := by
  rw [trim, trimStart_append before, trim]
  cases inner : trimStart s with
  | nil =>
      have all : ∀ c ∈ s, isBlank c = true := by
        intro c member
        have split : s.takeWhile isBlank ++ trimStart s = s := List.takeWhile_append_dropWhile
        rw [inner, List.append_nil] at split
        rw [← split] at member
        exact List.mem_takeWhile_imp member
      have none : trimStart (back ++ []) = [] := trimStart_append behind []
      rw [trimStart_append all, ← List.append_nil back, none]
  | cons c rest =>
      have reached : trimStart (s ++ back) = trimStart s ++ back := by
        rw [trimStart] at inner
        rw [trimStart, List.dropWhile_append, inner, trimStart, inner]
        rfl
      rw [reached, inner, trimEnd_append behind]

theorem trim_isPrefix (s : Text) : trim s <+: trimStart s := by
  rw [← List.reverse_suffix, trim, trimEnd, List.reverse_reverse]
  exact List.dropWhile_suffix isBlank

/-- Without its blanks a text is a part of what it was. -/
theorem trim_isInfix (s : Text) : trim s <:+: s :=
  (trim_isPrefix s).isInfix.trans (List.dropWhile_suffix isBlank).isInfix

/-- The blanks are off after the first time. -/
theorem trim_trim (s : Text) : trim (trim s) = trim s := by
  have end_ : trimEnd (trim s) = trim s := by
    rw [trim, trimEnd, trimEnd, List.reverse_reverse,
      dropWhile_of_stops (stops_dropWhile isBlank _)]
  have start : Stops isBlank (trim s) := by
    obtain ⟨back, same⟩ := trim_isPrefix s
    have visible : Stops isBlank (trimStart s) := stops_dropWhile isBlank s
    rw [← same] at visible
    cases trimmed : trim s with
    | nil => exact stops_nil isBlank
    | cons c rest =>
        rw [trimmed] at visible
        exact stops_cons.mpr (stops_cons.mp visible)
  rw [trim, trimStart, dropWhile_of_stops start, end_]

end Swatch
