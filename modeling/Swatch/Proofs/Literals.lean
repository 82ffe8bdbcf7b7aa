/-
Module: Swatch.Proofs.Literals
Purpose: Which values are colour literals as a whole, and that each finds itself.
Main exports:
  IsHexLiteral, IsRgbLiteral, IsLiteral, self_mem_valueLiterals, isLiteral_of_mem_literals
-/
import Swatch.Color.Literal
import Swatch.Proofs.Characters

namespace Swatch

/-!
### Literals as whole texts
-/

/-- A hash with exactly three or exactly six hexadecimal digits. -/
def IsHexLiteral (v : Text) : Prop :=
  ∃ digits : Text, v = '#' :: digits ∧ (digits.length = 3 ∨ digits.length = 6) ∧
    ∀ c ∈ digits, isHexDigit c = true

/-- A run of at least one decimal digit. -/
def IsDigitRun (digits : Text) : Prop :=
  digits ≠ [] ∧ ∀ c ∈ digits, c.isDigit = true

instance (digits : Text) : Decidable (IsDigitRun digits) :=
  @instDecidableAnd _ _ inferInstance (List.decidableBAll _ digits)

/-- An `rgb()` of three digit runs with one space after each comma and none elsewhere. -/
def IsRgbLiteral (v : Text) : Prop :=
  ∃ red green blue : Text, IsDigitRun red ∧ IsDigitRun green ∧ IsDigitRun blue ∧
    v = rgbText red green blue

/-- A value that is a colour literal as a whole. -/
def IsLiteral (v : Text) : Prop := IsHexLiteral v ∨ IsRgbLiteral v

/-!
### What is found is a literal
-/

theorem isHexLiteral_of_hexLiteral? {s v : Text} (found : hexLiteral? s = some v) :
    IsHexLiteral v := by
  unfold hexLiteral? at found
  split at found
  next s =>
    rw [Option.ite_none_right_eq_some] at found
    obtain ⟨⟨count, -⟩, result⟩ := found
    cases result
    exact ⟨s.takeWhile isHexDigit, rfl, count, fun c => List.mem_takeWhile_imp⟩
  next => cases found

/-- A digit run that was read is one. -/
theorem isDigitRun_of_digitsAfterBlanks? {s digits rest : Text}
    (found : digitsAfterBlanks? s = some (digits, rest)) : IsDigitRun digits := by
  simp only [digitsAfterBlanks?, Option.ite_none_left_eq_some, Option.some.injEq,
    Prod.mk.injEq] at found
  obtain ⟨nonempty, rfl, -⟩ := found
  exact ⟨by simpa using nonempty, fun c => List.mem_takeWhile_imp⟩

theorem isRgbLiteral_of_rgbLiteral? {s v : Text} (found : rgbLiteral? s = some v) :
    IsRgbLiteral v := by
  simp only [rgbLiteral?, Option.bind_eq_bind, Option.bind_eq_some_iff, Prod.exists] at found
  obtain ⟨_, -, red, _, hred, _, -, green, _, hgreen, _, -, blue, _, hblue, _, -, result⟩ :=
    found
  cases result
  exact ⟨red, green, blue, isDigitRun_of_digitsAfterBlanks? hred,
    isDigitRun_of_digitsAfterBlanks? hgreen, isDigitRun_of_digitsAfterBlanks? hblue, rfl⟩

/-- What a search finds, it finds somewhere in the text. -/
theorem exists_of_firstMatch {α : Type} {find : Text → Option α} {s : Text} {a : α}
    (found : firstMatch find s = some a) : ∃ t, find t = some a := by
  induction s with
  | nil => exact ⟨[], found⟩
  | cons c s ih =>
      rcases Option.or_eq_some_iff.mp found with here | ⟨-, later⟩
      · exact ⟨c :: s, here⟩
      · exact ih later

theorem isLiteral_of_mem_valueLiterals {v t : Text} (member : t ∈ valueLiterals v) :
    IsLiteral t := by
  simp only [valueLiterals, extractLiterals, List.mem_append, Option.mem_toList] at member
  rcases member with hex | rgb
  · obtain ⟨_, found⟩ := exists_of_firstMatch hex
    exact Or.inl (isHexLiteral_of_hexLiteral? found)
  · obtain ⟨_, found⟩ := exists_of_firstMatch rgb
    exact Or.inr (isRgbLiteral_of_rgbLiteral? found)

/-- Everything that a style sheet yields is a literal. -/
theorem isLiteral_of_mem_literals {nodes : List Node} {t : Text}
    (member : t ∈ literals nodes) : IsLiteral t := by
  rw [literals, List.mem_eraseDups, List.mem_flatMap] at member
  obtain ⟨d, -, found⟩ := member
  exact isLiteral_of_mem_valueLiterals found

/-!
### A literal finds itself

The text of a literal holds another one of its kind only behind its own first character, so
the leftmost match is the literal.
-/

theorem hexLiteral?_self {v : Text} (hex : IsHexLiteral v) : hexLiteral? v = some v := by
  obtain ⟨digits, rfl, count, all⟩ := hex
  have taken : digits.takeWhile isHexDigit = digits := by
    simpa using takeWhile_run all (stops_nil isHexDigit)
  have left : digits.dropWhile isHexDigit = [] := by
    simpa using dropWhile_run all (stops_nil isHexDigit)
  simp [hexLiteral?, taken, left, count]

/-- A search that succeeds at the start finds what is there. -/
theorem firstMatch_of_find {α : Type} {find : Text → Option α} {s : Text} {a : α}
    (found : find s = some a) : firstMatch find s = some a := by
  cases s with
  | nil => exact found
  | cons c s => simp [firstMatch, found]

theorem trimStart_cons_of_not_blank {c : Char} {s : Text} (h : isBlank c = false) :
    trimStart (c :: s) = c :: s := by
  simp [trimStart, h]

/-- A digit run is read up to the first character that is no digit. -/
theorem digitsAfterBlanks?_run {digits rest : Text} (run : IsDigitRun digits)
    (stops : Stops Char.isDigit rest) :
    digitsAfterBlanks? (digits ++ rest) = some (digits, rest) := by
  obtain ⟨nonempty, all⟩ := run
  have start : trimStart (digits ++ rest) = digits ++ rest := by
    cases digits with
    | nil => exact absurd rfl nonempty
    | cons d digits =>
        exact trimStart_cons_of_not_blank (isBlank_of_isDigit (all d (by simp)))
  simp only [digitsAfterBlanks?, start, takeWhile_run all stops, dropWhile_run all stops,
    List.isEmpty_iff, nonempty, if_false]

/-- The space after a comma is a blank. -/
theorem digitsAfterBlanks?_space {digits rest : Text} (run : IsDigitRun digits)
    (stops : Stops Char.isDigit rest) :
    digitsAfterBlanks? (' ' :: (digits ++ rest)) = some (digits, rest) := by
  have skipped : trimStart (' ' :: (digits ++ rest)) = trimStart (digits ++ rest) := by
    simp [trimStart, isBlank]
  have found := digitsAfterBlanks?_run run stops
  rw [digitsAfterBlanks?] at found ⊢
  rw [skipped]
  exact found

theorem rgbLiteral?_self {v : Text} (rgb : IsRgbLiteral v) : rgbLiteral? v = some v := by
  obtain ⟨red, green, blue, hred, hgreen, hblue, rfl⟩ := rgb
  have spelled : rgbText red green blue =
      "rgb(".toList ++ (red ++ ',' :: ' ' :: (green ++ ',' :: ' ' :: (blue ++ [')']))) := by
    delta rgbText
    simp
  have opened : strip? "rgb(".toList (rgbText red green blue) =
      some (red ++ ',' :: ' ' :: (green ++ ',' :: ' ' :: (blue ++ [')']))) :=
    strip?_eq_some.mpr spelled
  have comma (s : Text) : afterBlanks? ',' (',' :: s) = some s := by
    simp [afterBlanks?, trimStart, isBlank, strip?]
  have bracket : afterBlanks? ')' [')'] = some [] := by decide
  have stops (c : Char) (s : Text) (h : c.isDigit = false) : Stops Char.isDigit (c :: s) :=
    stops_cons.mpr h
  simp only [rgbLiteral?, opened, Option.bind_eq_bind, Option.bind_some,
    digitsAfterBlanks?_run hred (stops ',' _ (by decide)), comma,
    digitsAfterBlanks?_space hgreen (stops ',' _ (by decide)),
    digitsAfterBlanks?_space hblue (stops ')' _ (by decide)), bracket]
  rfl

/-- A literal is among the literals of its own text: the search respells nothing of it. -/
theorem self_mem_valueLiterals {v : Text} (literal : IsLiteral v) : v ∈ valueLiterals v := by
  simp only [valueLiterals, extractLiterals, List.mem_append, Option.mem_toList]
  rcases literal with hex | rgb
  · exact Or.inl (firstMatch_of_find (hexLiteral?_self hex))
  · exact Or.inr (firstMatch_of_find (rgbLiteral?_self rgb))

/-- The values of a style sheet that are literals are among its literals, and those are all
of them that stand as a whole value. -/
theorem mem_literals_iff_isLiteral {nodes : List Node} {d : Declaration}
    (member : d ∈ Node.declarationsAll nodes) :
    d.value ∈ literals nodes ↔ IsLiteral d.value := by
  constructor
  · exact isLiteral_of_mem_literals
  · intro literal
    rw [literals, List.mem_eraseDups, List.mem_flatMap]
    exact ⟨d, member, self_mem_valueLiterals literal⟩

end Swatch
