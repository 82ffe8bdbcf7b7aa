/-
Module: Swatch.Proofs.Leftmost
Purpose: The literals of a value stand at the leftmost places where there are any, each of them
  finds itself alone, and a sheet lists them in the order in which they first occur.
Main exports:
  HexAt, RgbAt, Leftmost, firstMatch_eq_some_iff, FirstOccurrences, extractLiterals_leftmost
-/
import Swatch.Proofs.Repetition

namespace Swatch

/-!
### Literals at a place

What a literal is at the start of a text is stated here by the parts of the text, without saying
how they are read.
-/

/-- A text starts with a hexadecimal literal: a hash, three or six hexadecimal digits, and then no
letter, digit or underscore of the ASCII range. -/
def HexAt (s t : Text) : Prop :=
  ∃ digits rest : Text, s = '#' :: (digits ++ rest) ∧ (digits.length = 3 ∨ digits.length = 6) ∧
    (∀ c ∈ digits, isHexDigit c = true) ∧ (∀ c ∈ rest.head?, isWordChar c = false) ∧
    t = '#' :: digits

/-- A run of digits with blanks around it. -/
def Padded (digits part : Text) : Prop :=
  ∃ before after : Text, (∀ c ∈ before, isBlank c = true) ∧ IsDigitRun digits ∧
    (∀ c ∈ after, isBlank c = true) ∧ part = before ++ (digits ++ after)

/-- A text starts with an `rgb()` literal: three runs of digits with blanks around them, separated
by commas and closed by a bracket.  What is found has its spaces behind the commas. -/
def RgbAt (s t : Text) : Prop :=
  ∃ red green blue first second third rest : Text,
    Padded red first ∧ Padded green second ∧ Padded blue third ∧
    s = "rgb(".toList ++ (first ++ ',' :: (second ++ ',' :: (third ++ ')' :: rest))) ∧
    t = rgbText red green blue

theorem isWordChar_of_isHexDigit {c : Char} (digit : isHexDigit c = true) :
    isWordChar c = true := by
  rw [isHexDigit_iff] at digit
  simp only [isWordChar, Char.isAlphanum, Bool.or_eq_true, isAlpha_iff, isDigit_iff]
  omega

theorem hexLiteral?_eq_some_iff {s t : Text} : hexLiteral? s = some t ↔ HexAt s t := by
  constructor
  · intro found
    unfold hexLiteral? at found
    split at found
    next s =>
      rw [Option.ite_none_right_eq_some] at found
      obtain ⟨⟨count, ends⟩, result⟩ := found
      refine ⟨s.takeWhile isHexDigit, s.dropWhile isHexDigit, ?_, count,
        fun c => List.mem_takeWhile_imp, ?_, (Option.some.inj result).symm⟩
      · rw [List.takeWhile_append_dropWhile]
      · intro c next
        rw [Option.mem_def] at next
        simpa [next] using ends
    next => cases found
  · rintro ⟨digits, rest, rfl, count, all, next, rfl⟩
    have ends : Stops isWordChar rest := by
      cases rest with
      | nil => exact stops_nil _
      | cons c rest => exact stops_cons.mpr (next c rfl)
    have stops : Stops isHexDigit rest := by
      cases rest with
      | nil => exact stops_nil _
      | cons c rest =>
          apply stops_cons.mpr
          by_contra digit
          have word := isWordChar_of_isHexDigit (Bool.not_eq_false _ ▸ digit)
          rw [stops_cons.mp ends] at word
          cases word
    rw [Stops] at ends
    simp [hexLiteral?, takeWhile_run all stops, dropWhile_run all stops, count, ends]

/-- A digit is read behind all blanks before it. -/
theorem digitsAfterBlanks?_eq_some_iff {s digits rest : Text} :
    digitsAfterBlanks? s = some (digits, rest) ↔
      ∃ before, (∀ c ∈ before, isBlank c = true) ∧ IsDigitRun digits ∧
        Stops Char.isDigit rest ∧ s = before ++ (digits ++ rest) := by
  constructor
  · intro found
    have run := isDigitRun_of_digitsAfterBlanks? found
    simp only [digitsAfterBlanks?, Option.ite_none_left_eq_some, Option.some.injEq,
      Prod.mk.injEq] at found
    obtain ⟨-, taken, left⟩ := found
    refine ⟨s.takeWhile isBlank, fun c => List.mem_takeWhile_imp, run, ?_, ?_⟩
    · rw [← left]
      exact stops_dropWhile _ _
    · rw [← taken, ← left, List.takeWhile_append_dropWhile]
      exact List.takeWhile_append_dropWhile.symm
  · rintro ⟨before, blanks, run, stops, rfl⟩
    have skipped : trimStart (before ++ (digits ++ rest)) = trimStart (digits ++ rest) :=
      List.dropWhile_append_of_pos blanks
    have found := digitsAfterBlanks?_run run stops
    rw [digitsAfterBlanks?] at found ⊢
    rw [skipped]
    exact found

/-- A character that is no blank is found behind all blanks before it. -/
theorem afterBlanks?_eq_some_iff {c : Char} (dark : isBlank c = false) {s rest : Text} :
    afterBlanks? c s = some rest ↔
      ∃ before, (∀ d ∈ before, isBlank d = true) ∧ s = before ++ c :: rest := by
  rw [afterBlanks?, strip?_eq_some]
  constructor
  · intro found
    refine ⟨s.takeWhile isBlank, fun d => List.mem_takeWhile_imp, ?_⟩
    calc s = s.takeWhile isBlank ++ trimStart s := List.takeWhile_append_dropWhile.symm
      _ = s.takeWhile isBlank ++ c :: rest := by rw [found]; rfl
  · rintro ⟨before, blanks, rfl⟩
    exact dropWhile_run blanks (stops_cons.mpr dark)

/-- A padded run of digits with the character behind it is read in two steps. -/
theorem padded_iff {c : Char} (dark : isBlank c = false) (other : c.isDigit = false)
    (s digits rest : Text) :
    (∃ middle, digitsAfterBlanks? s = some (digits, middle) ∧
        afterBlanks? c middle = some rest) ↔
      ∃ part, Padded digits part ∧ s = part ++ c :: rest := by
  simp only [digitsAfterBlanks?_eq_some_iff, afterBlanks?_eq_some_iff dark]
  constructor
  · rintro ⟨_, ⟨before, blanks, run, -, rfl⟩, after, others, rfl⟩
    exact ⟨before ++ (digits ++ after), ⟨before, after, blanks, run, others, rfl⟩, by simp⟩
  · rintro ⟨_, ⟨before, after, blanks, run, others, rfl⟩, rfl⟩
    refine ⟨after ++ c :: rest, ⟨before, blanks, run, ?_, by simp⟩, after, others, rfl⟩
    cases after with
    | nil => exact stops_cons.mpr other
    | cons d after =>
        apply stops_cons.mpr
        by_contra digit
        have dark := isBlank_of_isDigit (Bool.not_eq_false _ ▸ digit)
        rw [others d List.mem_cons_self] at dark
        cases dark

theorem rgbLiteral?_eq_some_iff {s t : Text} : rgbLiteral? s = some t ↔ RgbAt s t := by
  have comma := padded_iff (c := ',') rfl rfl
  have bracket := padded_iff (c := ')') rfl rfl
  simp only [rgbLiteral?, Option.bind_eq_bind, Option.bind_eq_some_iff, Prod.exists,
    strip?_eq_some]
  constructor
  · rintro ⟨_, rfl, red, s, r, s', afterRed, green, s'', g, s₃, afterGreen, blue, s₄, b, rest,
      afterBlue, result⟩
    obtain ⟨first, padsRed, rfl⟩ := (comma _ _ _).mp ⟨s, r, afterRed⟩
    obtain ⟨second, padsGreen, rfl⟩ := (comma _ _ _).mp ⟨s'', g, afterGreen⟩
    obtain ⟨third, padsBlue, rfl⟩ := (bracket _ _ _).mp ⟨s₄, b, afterBlue⟩
    exact ⟨red, green, blue, first, second, third, rest, padsRed, padsGreen, padsBlue, rfl,
      (Option.some.inj result).symm⟩
  · rintro ⟨red, green, blue, first, second, third, rest, padsRed, padsGreen, padsBlue, rfl, rfl⟩
    obtain ⟨s, r, afterRed⟩ := (comma _ _ _).mpr ⟨first, padsRed, rfl⟩
    obtain ⟨s', g, afterGreen⟩ := (comma _ _ _).mpr ⟨second, padsGreen, rfl⟩
    obtain ⟨s'', b, afterBlue⟩ := (bracket _ _ _).mpr ⟨third, padsBlue, rfl⟩
    exact ⟨_, rfl, red, s, r, _, afterRed, green, s', g, _, afterGreen, blue, s'', b, rest,
      afterBlue, rfl⟩

/-!
### The leftmost place
-/

/-- Something stands somewhere in a text. -/
def Occurs (At : Text → Text → Prop) (v t : Text) : Prop :=
  ∃ before after, v = before ++ after ∧ At after t

/-- What stands at the leftmost place of a text where anything stands. -/
def Leftmost (At : Text → Text → Prop) (v t : Text) : Prop :=
  ∃ before after, v = before ++ after ∧ At after t ∧
    ∀ sooner later, v = sooner ++ later → sooner.length < before.length → ∀ u, ¬At later u

section Search

variable {find : Text → Option Text} {At : Text → Text → Prop}

/-- A search finds nothing exactly where nothing stands at any place. -/
theorem firstMatch_eq_none_iff (spec : ∀ s t, find s = some t ↔ At s t) {v : Text} :
    firstMatch find v = none ↔ ∀ t, ¬Occurs At v t := by
  constructor
  · intro nothing t
    rintro ⟨before, after, rfl, here⟩
    induction before with
    | nil =>
        have found := firstMatch_of_find ((spec after t).mpr here)
        rw [List.nil_append, found] at nothing
        cases nothing
    | cons c before ih => exact ih (Option.or_eq_none_iff.mp nothing).2
  · intro absent
    apply firstMatch_eq_none
    rintro after ⟨before, rfl⟩
    apply Option.eq_none_iff_forall_ne_some.mpr
    intro t found
    exact absent t ⟨before, after, rfl, (spec after t).mp found⟩

/-- A search finds what stands at the leftmost place. -/
theorem firstMatch_eq_some_iff (spec : ∀ s t, find s = some t ↔ At s t) {v t : Text} :
    firstMatch find v = some t ↔ Leftmost At v t := by
  induction v with
  | nil =>
      rw [firstMatch, spec]
      constructor
      · intro here
        exact ⟨[], [], rfl, here, fun _ _ _ short => absurd short (Nat.not_lt_zero _)⟩
      · rintro ⟨before, after, split, here, -⟩
        obtain ⟨rfl, rfl⟩ := List.append_eq_nil_iff.mp split.symm
        exact here
  | cons c s ih =>
      rw [firstMatch, Option.or_eq_some_iff, spec, ih, Option.eq_none_iff_forall_ne_some]
      constructor
      · rintro (here | ⟨fails, before, after, rfl, there, none⟩)
        · exact ⟨[], c :: s, rfl, here, fun _ _ _ short => absurd short (Nat.not_lt_zero _)⟩
        · refine ⟨c :: before, after, rfl, there, ?_⟩
          intro sooner later split short u match_
          cases sooner with
          | nil =>
              rw [List.nil_append] at split
              exact fails u ((spec _ u).mpr (split ▸ match_))
          | cons d sooner =>
              obtain ⟨-, split⟩ := List.cons.inj split
              exact none sooner later split (Nat.lt_of_succ_lt_succ short) u match_
      · rintro ⟨before, after, split, there, none⟩
        cases before with
        | nil =>
            rw [List.nil_append] at split
            exact Or.inl (split ▸ there)
        | cons d before =>
            obtain ⟨rfl, rfl⟩ := List.cons.inj split
            refine Or.inr ⟨?_, before, after, rfl, there, ?_⟩
            · intro u found
              exact none [] _ rfl (Nat.zero_lt_succ _) u ((spec _ u).mp found)
            · intro sooner later split short u match_
              exact none (c :: sooner) later (congrArg (c :: ·) split)
                (Nat.succ_lt_succ short) u match_

end Search

/-!
### First occurrences
-/

/-- A list holds what another one holds, each element once and in the order in which the elements
first occur there. -/
structure FirstOccurrences (all kept : List Text) : Prop where
  distinct : kept.Nodup
  mem_iff : ∀ t, t ∈ kept ↔ t ∈ all
  order : kept.Pairwise fun t u => all.idxOf t < all.idxOf u

/-- Leaving out repetitions keeps the first occurrences. -/
theorem firstOccurrences_eraseDups (all : List Text) : FirstOccurrences all all.eraseDups where
  distinct := nodup_eraseDups all
  mem_iff := fun _ => List.mem_eraseDups
  order := by
    -- from the end: one more element can only be new behind all others
    induction all using List.reverseRecOn with
    | nil => exact .nil
    | append_singleton all t ih =>
        have kept : all.eraseDups.Pairwise fun u w =>
            (all ++ [t]).idxOf u < (all ++ [t]).idxOf w := by
          apply ih.imp_of_mem
          intro u w first second before
          rw [List.idxOf_append_of_mem (List.mem_eraseDups.mp first),
            List.idxOf_append_of_mem (List.mem_eraseDups.mp second)]
          exact before
        rw [eraseDups_concat]
        split
        next => exact kept
        next fresh =>
          have absent : t ∉ all := by simpa using fresh
          apply List.pairwise_append.mpr
          refine ⟨kept, List.pairwise_singleton _ _, ?_⟩
          intro u first w last
          have met := List.mem_eraseDups.mp first
          rw [List.mem_singleton.mp last, List.idxOf_append_of_mem met,
            List.idxOf_append_of_notMem absent]
          exact Nat.lt_add_right _ (List.idxOf_lt_length_of_mem met)

/-!
### The result
-/

/-- A literal finds itself and nothing else. -/
theorem extractLiterals_self {t : Text} :
    (IsHexLiteral t → extractLiterals t = (some t, none)) ∧
      (IsRgbLiteral t → extractLiterals t = (none, some t)) := by
  constructor
  · intro hex
    have found : firstMatch hexLiteral? t = some t := firstMatch_of_find (hexLiteral?_self hex)
    have only := valueLiterals_of_isLiteral (.inl hex)
    rw [valueLiterals, extractLiterals, found] at only
    rw [extractLiterals, found]
    simpa using only
  · intro rgb
    have found : firstMatch rgbLiteral? t = some t := firstMatch_of_find (rgbLiteral?_self rgb)
    have only := valueLiterals_of_isLiteral (.inr rgb)
    rw [valueLiterals, extractLiterals, found] at only
    rw [extractLiterals, found]
    simpa using only

/-- The literals of a value are the leftmost ones of their kinds, and there is none of a kind only
where it stands at no place.  A literal that was found is the only one of its own text.  The
literals of a sheet are those of its values in document order, hexadecimal before `rgb()` in each
value, at their first occurrences. -/
theorem extractLiterals_leftmost :
    (∀ v t, (extractLiterals v).1 = some t ↔ Leftmost HexAt v t) ∧
    (∀ v, (extractLiterals v).1 = none ↔ ∀ t, ¬Occurs HexAt v t) ∧
    (∀ v t, (extractLiterals v).2 = some t ↔ Leftmost RgbAt v t) ∧
    (∀ v, (extractLiterals v).2 = none ↔ ∀ t, ¬Occurs RgbAt v t) ∧
    (∀ v t, (extractLiterals v).1 = some t → extractLiterals t = (some t, none)) ∧
    (∀ v t, (extractLiterals v).2 = some t → extractLiterals t = (none, some t)) ∧
    ∀ nodes, FirstOccurrences ((Node.declarationsAll nodes).flatMap fun d =>
      (extractLiterals d.value).1.toList ++ (extractLiterals d.value).2.toList)
        (literals nodes) := by
  refine ⟨fun v t => ?_, fun v => ?_, fun v t => ?_, fun v => ?_, fun v t found => ?_,
    fun v t found => ?_, fun nodes => ?_⟩
  · exact firstMatch_eq_some_iff fun _ _ => hexLiteral?_eq_some_iff
  · exact firstMatch_eq_none_iff fun _ _ => hexLiteral?_eq_some_iff
  · exact firstMatch_eq_some_iff fun _ _ => rgbLiteral?_eq_some_iff
  · exact firstMatch_eq_none_iff fun _ _ => rgbLiteral?_eq_some_iff
  · obtain ⟨_, here⟩ := exists_of_firstMatch found
    exact extractLiterals_self.1 (isHexLiteral_of_hexLiteral? here)
  · obtain ⟨_, here⟩ := exists_of_firstMatch found
    exact extractLiterals_self.2 (isRgbLiteral_of_rgbLiteral? here)
  · exact firstOccurrences_eraseDups _

/-- A value in which a call starts again inside itself, and hashes that are no literals stand
before one that is. -/
def crowdedValue : Text := "rgb(rgb(1 ,02,3) ##ffff#fffé".toList

/-- The literals of the crowded value are its inner call and its last hash. -/
theorem extractLiterals_leftmost_crowdedValue :
    extractLiterals crowdedValue = (some "#fff".toList, some "rgb(1, 02, 3)".toList) ∧
      Leftmost HexAt crowdedValue "#fff".toList ∧
      Leftmost RgbAt crowdedValue "rgb(1, 02, 3)".toList ∧
      extractLiterals "rgb(1, 02, 3)".toList = (none, some "rgb(1, 02, 3)".toList) := by
  have found : extractLiterals crowdedValue =
      (some "#fff".toList, some "rgb(1, 02, 3)".toList) := by decide +kernel
  obtain ⟨hex, -, rgb, -, -, stable, -⟩ := extractLiterals_leftmost
  have first : (extractLiterals crowdedValue).1 = some "#fff".toList := by rw [found]
  have second : (extractLiterals crowdedValue).2 = some "rgb(1, 02, 3)".toList := by rw [found]
  exact ⟨found, (hex _ _).mp first, (rgb _ _).mp second, stable _ _ second⟩

end Swatch
