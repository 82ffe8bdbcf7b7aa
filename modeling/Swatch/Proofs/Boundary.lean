/-
Module: Swatch.Proofs.Boundary
Purpose: Readers of names, strings, addresses and comments before a character that ends any
  token: what takes no more than the text does not depend on what follows.
Main exports:
  EndsText, takeWhile_before, prefix_before, readName_before, readString_before, readUrl_before,
  readComment_before
-/
import Swatch.Proofs.Tokens

namespace Swatch

/-- The characters that end any token before them. -/
def textEnds : List Char := [' ', ';', ',', '\x7b', '\x7d']

/-- A character that can stand behind a text without going on with it. -/
def EndsText (c : Char) : Prop := c ∈ textEnds

instance (c : Char) : Decidable (EndsText c) := inferInstanceAs (Decidable (_ ∈ _))

/-- A class without these characters does not hold the end of a text. -/
theorem EndsText.outside {stop : Char} (ends : EndsText stop) (p : Char → Bool)
    (none : textEnds.any p = false) : p stop = false := by
  rw [List.any_eq_false] at none
  exact Bool.eq_false_iff.mpr (none stop ends)

theorem EndsText.ne {stop : Char} (ends : EndsText stop) {c : Char} (other : c ∉ textEnds) :
    stop ≠ c := by
  rintro rfl
  exact other ends

theorem EndsText.notMem {stop : Char} (ends : EndsText stop) {mark : Text}
    (none : mark.any (· ∈ textEnds) = false) : stop ∉ mark := by
  rw [List.any_eq_false] at none
  exact fun member => none stop member (decide_eq_true ends)

/-!
### How much is taken
-/

theorem readHex_le (sofar most : Nat) (v : Text) : (readHex sofar most v).2 ≤ v.length := by
  induction v generalizing sofar most with
  | nil => cases most <;> exact Nat.le_refl 0
  | cons c v ih =>
      cases most with
      | zero => exact Nat.zero_le _
      | succ most =>
          rw [readHex]
          split
          next => exact Nat.succ_le_succ (ih _ most)
          next => exact Nat.zero_le _

/-- A run and what is left by it make up the text. -/
theorem length_takeWhile_add (p : Char → Bool) (v : Text) :
    (v.takeWhile p).length + (v.dropWhile p).length = v.length := by
  rw [← List.length_append, List.takeWhile_append_dropWhile]

theorem newlineLength_le (v : Text) : newlineLength v ≤ v.length := by
  rw [newlineLength.eq_def]
  split
  next => simp
  next => split <;> simp
  next => simp

/-- A malformed address goes on with two characters where a backslash hides the second. -/
theorem skipUrl_cons (c : Char) (s : Text) :
    skipUrl (c :: s) =
      if c = '\\' ∧ (s.head? = some ')' ∨ s.head? = some '\\') then 2 + skipUrl s.tail
      else if c = ')' then 0 else 1 + skipUrl s := by
  cases s with
  | nil => simp [skipUrl]
  | cons d s =>
      by_cases escape : c = '\\'
      · subst escape
        by_cases closing : d = ')'
        · subst closing
          rfl
        · by_cases again : d = '\\'
          · subst again
            rfl
          · simp [skipUrl, closing, again]
      · simp [skipUrl, escape]

/-- A comment goes on over a character that does not begin its end. -/
theorem readComment_cons {c : Char} {s : Text} (opens : ¬(c = '*' ∧ s.head? = some '/')) :
    readComment (c :: s) = (c :: (readComment s).1, 1 + (readComment s).2) := by
  refine readComment.eq_3 c s fun more same slash => opens ⟨same, ?_⟩
  rw [slash, List.head?_cons]

theorem readUrlBody_pos (c : Char) (s : Text) : 0 < (readUrlBody (c :: s)).2 := by
  rw [readUrlBody]
  split
  next => exact Nat.one_pos
  next =>
    split
    next =>
      dsimp only
      split
      next => exact Nat.add_pos_left Nat.one_pos _
      next =>
        split
        next => exact Nat.succ_pos _
        next => exact Nat.add_pos_left (Nat.succ_pos _) _
    next =>
      split
      next => exact Nat.add_pos_left Nat.one_pos _
      next =>
        split
        next =>
          split
          next => exact Nat.add_pos_left Nat.one_pos _
          next => exact Nat.add_pos_left (Nat.add_pos_left Nat.one_pos _) _
        next => exact Nat.add_pos_left Nat.one_pos _

section Before

variable {stop : Char} (ends : EndsText stop) (rest : Text)

/-!
### Escapes and names

A reader that takes no more than the text takes the same whatever follows the end.
-/

theorem drop_before {n : Nat} {v : Text} (inside : n ≤ v.length) :
    (v ++ stop :: rest).drop n = v.drop n ++ stop :: rest :=
  List.drop_append_of_le_length inside

/-- A run that does not go on over the end is the run of the text. -/
theorem takeWhile_before (p : Char → Bool) {v : Text}
    (inside : ((v ++ [stop]).takeWhile p).length ≤ v.length) :
    (v ++ stop :: rest).takeWhile p = v.takeWhile p := by
  induction v with
  | nil =>
      have outside : ¬p stop = true := by
        intro within
        rw [List.nil_append, List.takeWhile_cons_of_pos within] at inside
        exact absurd inside (by simp)
      rw [List.nil_append, List.takeWhile_cons_of_neg outside]
      rfl
  | cons c v ih =>
      rw [List.cons_append] at inside ⊢
      by_cases within : p c = true
      · rw [List.takeWhile_cons_of_pos within, List.length_cons, List.length_cons,
          Nat.add_le_add_iff_right] at inside
        rw [List.takeWhile_cons_of_pos within, List.takeWhile_cons_of_pos within, ih inside]
      · rw [List.takeWhile_cons_of_neg within, List.takeWhile_cons_of_neg within]

/-- A run of a class without the end does not go on over it. -/
theorem takeWhile_le_append {p : Char → Bool} (outside : p stop = false) (v : Text) :
    ((v ++ [stop]).takeWhile p).length ≤ v.length := by
  induction v with
  | nil =>
      have fails : ¬p stop = true := by simp [outside]
      exact Nat.le_of_eq (congrArg List.length (List.takeWhile_cons_of_neg fails))
  | cons c v ih =>
      rw [List.cons_append, List.takeWhile_cons]
      split
      next => exact Nat.succ_le_succ ih
      next => exact Nat.zero_le _

/-- What is left of a text by such a run stands before the end. -/
theorem dropWhile_before (p : Char → Bool) {v : Text}
    (inside : ((v ++ [stop]).takeWhile p).length ≤ v.length) :
    (v ++ stop :: rest).dropWhile p = v.dropWhile p ++ stop :: rest := by
  rw [← drop_length_takeWhile, takeWhile_before rest p inside,
    drop_before rest (List.takeWhile_prefix p).length_le, drop_length_takeWhile]

/-- The end of the text is not what stands first, unless it is looked for. -/
theorem head?_before {c : Char} (other : stop ≠ c) (v : Text) :
    (v ++ stop :: rest).head? = some c ↔ v.head? = some c := by
  cases v with
  | nil => simp [other]
  | cons d v => rfl

/-- A mark without the end of the text is found before it or not at all. -/
theorem prefix_before {mark : Text} (other : stop ∉ mark) (v : Text) :
    mark <+: v ++ stop :: rest ↔ mark <+: v := by
  constructor
  · intro found
    rcases Nat.le_total mark.length v.length with short | long
    · exact List.prefix_of_prefix_length_le found (List.prefix_append _ _) short
    · rcases List.prefix_or_prefix_of_prefix found (List.prefix_append v (stop :: rest)) with
        within | ⟨more, whole⟩
      · exact within
      · subst whole
        cases more with
        | nil => exact ⟨[], by simp⟩
        | cons c more =>
            have first := (List.prefix_append_right_inj v).mp found
            rw [List.cons_prefix_cons] at first
            exact absurd (by simp [first.1]) other
  · intro found
    exact found.trans (List.prefix_append _ _)

theorem strip?_before {mark : Text} (other : stop ∉ mark) (v : Text) :
    (strip? mark (v ++ stop :: rest)).isNone = (strip? mark v).isNone := by
  have found (s : Text) : (strip? mark s).isNone = true ↔ ¬mark <+: s := by
    rw [Option.isNone_iff_eq_none, Option.eq_none_iff_forall_ne_some]
    constructor
    · rintro none ⟨more, same⟩
      exact none more (strip?_eq_some.mpr same.symm)
    · intro none more same
      exact none ⟨more, (strip?_eq_some.mp same).symm⟩
  rw [Bool.eq_iff_iff, found, found, prefix_before rest other]

include ends

theorem startsNewline_before (v : Text) : startsNewline (v ++ stop :: rest) = startsNewline v := by
  cases v with
  | nil => exact ends.outside isNewline rfl
  | cons c v => rfl

theorem startsName_before (v : Text) : startsName (v ++ stop :: rest) = startsName v := by
  have outside : startsName (stop :: rest) = false := by
    have start : isNameStart stop = false := ends.outside isNameStart rfl
    have hyphen : stop ≠ '-' := ends.ne (by decide)
    have escape : stop ≠ '\\' := ends.ne (by decide)
    rw [startsName.eq_3 _ _ (fun _ _ same _ => hyphen same) escape]
    exact start
  cases v with
  | nil => exact outside
  | cons c v =>
      cases v with
      | nil =>
          have newline : isNewline stop = false := ends.outside isNewline rfl
          have start : (isNameStart stop || stop == '-' || stop == '\\') = false :=
            ends.outside (fun c => isNameStart c || c == '-' || c == '\\') rfl
          by_cases hyphen : c = '-'
          · subst hyphen
            exact start
          · by_cases escape : c = '\\'
            · subst escape
              simp [startsName, startsNewline, newline]
            · simp [startsName, hyphen]
      | cons d v =>
          by_cases hyphen : c = '-'
          · subst hyphen
            rfl
          · by_cases escape : c = '\\'
            · subst escape
              rfl
            · simp [startsName, hyphen]

theorem readHex_before (sofar most : Nat) (v : Text) :
    readHex sofar most (v ++ stop :: rest) = readHex sofar most v := by
  have outside : isHexDigit stop = false := ends.outside isHexDigit rfl
  induction v generalizing sofar most with
  | nil =>
      cases most with
      | zero => rfl
      | succ most =>
          rw [List.nil_append, readHex, outside]
          rfl
  | cons c v ih =>
      cases most with
      | zero => rfl
      | succ most => rw [List.cons_append, readHex, readHex, ih]

theorem newlineLength_before (v : Text) :
    newlineLength (v ++ stop :: rest) = newlineLength v := by
  cases v with
  | nil =>
      have newline : isNewline stop = false := ends.outside isNewline rfl
      have carriage : stop ≠ '\r' := ends.ne (by decide)
      simp [newlineLength, newline, carriage]
  | cons c v =>
      by_cases carriage : c = '\r'
      · subst carriage
        cases v with
        | nil =>
            have feed : stop ≠ '\n' := ends.ne (by decide)
            simp [newlineLength, feed]
        | cons d v =>
            by_cases feed : d = '\n'
            · subst feed
              rfl
            · simp [newlineLength, feed]
      · simp [newlineLength, carriage]

theorem spaceLength_before {v : Text} (inside : spaceLength (v ++ [stop]) ≤ v.length) :
    spaceLength (v ++ stop :: rest) = spaceLength v := by
  have newline : isNewline stop = false := ends.outside isNewline rfl
  cases v with
  | nil =>
      simp only [List.nil_append, spaceLength, newline, Bool.false_eq_true, if_false,
        List.length_nil] at inside ⊢
      exact Nat.le_zero.mp inside
  | cons c v =>
      rw [List.cons_append, spaceLength, spaceLength, ← List.cons_append,
        newlineLength_before ends]

theorem not_readEscape_end : ¬(readEscape [stop]).2 ≤ 0 := by
  have digit : isHexDigit stop = false := ends.outside isHexDigit rfl
  rw [readEscape, digit]
  exact Nat.not_succ_le_zero 0

theorem readEscape_before {v : Text} (inside : (readEscape (v ++ [stop])).2 ≤ v.length) :
    readEscape (v ++ stop :: rest) = readEscape v := by
  cases v with
  | nil =>
      exact absurd inside (not_readEscape_end ends)
  | cons c v =>
      rw [List.cons_append, readEscape, ← List.cons_append, readHex_before ends] at inside
      rw [List.cons_append, readEscape, readEscape, ← List.cons_append, readHex_before ends]
      split
      next digit =>
        rw [if_pos digit] at inside
        have taken := readHex_le 0 6 (c :: v)
        generalize readHex 0 6 (c :: v) = hex at inside taken ⊢
        obtain ⟨code, count⟩ := hex
        dsimp only at inside taken ⊢
        rw [drop_before [] taken] at inside
        rw [drop_before rest taken]
        have space : spaceLength ((c :: v).drop count ++ [stop]) ≤
            ((c :: v).drop count).length := by
          rw [List.length_drop]
          omega
        rw [spaceLength_before ends rest space]
      next => rfl

theorem readName_before {v : Text} (inside : (readName (v ++ [stop])).2 ≤ v.length) :
    readName (v ++ stop :: rest) = readName v := by
  cases v with
  | nil =>
      have escape : stop ≠ '\\' := ends.ne (by decide)
      have name : ¬isNameChar stop = true := by simp [ends.outside isNameChar rfl]
      have alone : readName [] = ([], 0) := by rw [readName]
      rw [List.nil_append, alone, readName, if_neg escape, if_neg name]
  | cons c v =>
      rw [List.cons_append, readName, startsNewline_before ends] at inside
      rw [List.cons_append, readName, readName, startsNewline_before ends]
      split
      next escape =>
        rw [if_pos escape] at inside
        split
        next => rfl
        next newline =>
          rw [if_neg newline] at inside
          dsimp only at inside ⊢
          have within : (readEscape (v ++ [stop])).2 ≤ v.length := by
            rw [List.length_cons] at inside
            omega
          have here := readEscape_before ends rest within
          have alone := readEscape_before ends [] within
          rw [alone] at within inside
          rw [drop_before [] within] at inside
          rw [here, drop_before rest within]
          have later : (readName (v.drop (readEscape v).2 ++ [stop])).2 ≤
              (v.drop (readEscape v).2).length := by
            rw [List.length_drop]
            rw [List.length_cons] at inside
            omega
          rw [readName_before later]
      next escape =>
        rw [if_neg escape] at inside
        split
        next name =>
          rw [if_pos name] at inside
          have later : (readName (v ++ [stop])).2 ≤ v.length := by
            dsimp only at inside
            rw [List.length_cons] at inside
            omega
          rw [readName_before later]
        next => rfl
termination_by v.length

/-!
### Strings, addresses and comments
-/

theorem readString_before {mark : Char} (other : stop ≠ mark) {v : Text}
    (inside : (readString mark (v ++ [stop])).2 ≤ v.length) :
    readString mark (v ++ stop :: rest) = readString mark v := by
  cases v with
  | nil =>
      have escape : stop ≠ '\\' := ends.ne (by decide)
      have newline : ¬isNewline stop = true := by simp [ends.outside isNewline rfl]
      rw [List.nil_append, readString, if_neg other, if_neg newline, if_neg escape] at inside
      exact absurd inside (by simp)
  | cons c v =>
      have filled (w : Text) : (v ++ stop :: w).isEmpty = false := by simp
      rw [List.cons_append, readString, startsNewline_before ends, filled] at inside
      rw [List.cons_append, readString, readString, startsNewline_before ends, filled]
      split
      next => rfl
      next closing =>
        rw [if_neg closing] at inside
        split
        next => rfl
        next newline =>
          rw [if_neg newline] at inside
          split
          next escape =>
            rw [if_pos escape, if_neg Bool.false_ne_true] at inside
            rw [if_neg Bool.false_ne_true]
            by_cases hides : startsNewline v = true
            · have some : ¬v.isEmpty = true := by
                cases v with
                | nil => cases hides
                | cons d v => simp
              have within := newlineLength_le v
              rw [if_pos hides] at inside
              rw [if_pos hides, if_neg some, if_pos hides]
              dsimp only at inside ⊢
              rw [newlineLength_before ends, drop_before [] within] at inside
              rw [newlineLength_before ends, drop_before rest within]
              have later : (readString mark (v.drop (newlineLength v) ++ [stop])).2 ≤
                  (v.drop (newlineLength v)).length := by
                rw [List.length_drop]
                rw [List.length_cons] at inside
                omega
              rw [readString_before other later]
            · rw [if_neg hides] at inside
              rw [if_neg hides]
              dsimp only at inside
              have within : (readEscape (v ++ [stop])).2 ≤ v.length := by
                rw [List.length_cons] at inside
                omega
              have some : ¬v.isEmpty = true := by
                cases v with
                | nil => exact absurd within (not_readEscape_end ends)
                | cons d v => simp
              have here := readEscape_before ends rest within
              have alone := readEscape_before ends [] within
              rw [alone] at within inside
              rw [drop_before [] within] at inside
              have later : (readString mark (v.drop (readEscape v).2 ++ [stop])).2 ≤
                  (v.drop (readEscape v).2).length := by
                rw [List.length_drop]
                rw [List.length_cons] at inside
                omega
              rw [if_neg some, if_neg hides, here]
              dsimp only
              rw [drop_before rest within, readString_before other later]
          next escape =>
            rw [if_neg escape] at inside
            have later : (readString mark (v ++ [stop])).2 ≤ v.length := by
              dsimp only at inside
              rw [List.length_cons] at inside
              omega
            rw [readString_before other later]
termination_by v.length

theorem skipUrl_before {v : Text} (inside : skipUrl (v ++ [stop]) ≤ v.length) :
    skipUrl (v ++ stop :: rest) = skipUrl v := by
  have closing : stop ≠ ')' := ends.ne (by decide)
  have escape : stop ≠ '\\' := ends.ne (by decide)
  cases v with
  | nil =>
      rw [List.nil_append, skipUrl_cons, if_neg (by simp [escape]), if_neg closing] at inside
      exact absurd inside (by simp)
  | cons c v =>
      rw [List.cons_append, skipUrl_cons] at inside
      rw [List.cons_append, skipUrl_cons, skipUrl_cons]
      simp only [head?_before _ closing, head?_before _ escape] at inside ⊢
      split
      next hides =>
        rw [if_pos hides] at inside
        cases v with
        | nil => simp at hides
        | cons d v =>
            rw [List.cons_append, List.tail_cons, List.length_cons, List.length_cons] at inside
            have later : skipUrl (v ++ [stop]) ≤ v.length := by omega
            rw [List.cons_append, List.tail_cons, List.tail_cons, skipUrl_before later]
      next hides =>
        rw [if_neg hides] at inside
        split
        next => rfl
        next open_ =>
          rw [if_neg open_, List.length_cons] at inside
          have later : skipUrl (v ++ [stop]) ≤ v.length := by omega
          rw [skipUrl_before later]
termination_by v.length

/-- After spaces the bracket stands, or the address is malformed. -/
theorem readUrlBody_space_before {c : Char} {v : Text} (space : isSpace c = true)
    (inside : (readUrlBody (c :: v ++ [stop])).2 ≤ (c :: v).length) :
    readUrlBody (c :: v ++ stop :: rest) = readUrlBody (c :: v) := by
  have closing : c ≠ ')' := by
    rintro rfl
    cases space
  rw [List.cons_append, readUrlBody, if_neg closing, if_pos space, List.length_cons] at inside
  rw [List.cons_append, readUrlBody, readUrlBody, if_neg closing, if_neg closing, if_pos space,
    if_pos space]
  dsimp only at inside ⊢
  have within : ((v ++ [stop]).takeWhile isSpace).length ≤ v.length := by
    split at inside
    next => omega
    next d more _ =>
      split at inside
      all_goals
        dsimp only at inside
        omega
  rw [takeWhile_before [] isSpace within, dropWhile_before [] isSpace within] at inside
  rw [takeWhile_before rest isSpace within, dropWhile_before rest isSpace within]
  have size := length_takeWhile_add isSpace v
  cases left : v.dropWhile isSpace with
  | nil =>
      have mark : stop ≠ ')' := ends.ne (by decide)
      rw [left, List.length_nil] at size
      rw [left, List.nil_append] at inside
      dsimp only at inside
      rw [if_neg mark] at inside
      dsimp only at inside
      omega
  | cons d more =>
      rw [left, List.length_cons] at size
      rw [left, List.cons_append] at inside
      rw [List.cons_append]
      dsimp only at inside ⊢
      split
      next => rfl
      next other =>
        rw [if_neg other] at inside
        have later : skipUrl (more ++ [stop]) ≤ more.length := by
          dsimp only at inside
          omega
        rw [skipUrl_before ends rest later]

theorem readUrlBody_before {v : Text} (inside : (readUrlBody (v ++ [stop])).2 ≤ v.length) :
    readUrlBody (v ++ stop :: rest) = readUrlBody v := by
  cases v with
  | nil => exact absurd inside (Nat.not_le.mpr (readUrlBody_pos stop []))
  | cons c v =>
      by_cases space : isSpace c = true
      · exact readUrlBody_space_before ends rest space inside
      rw [List.cons_append, readUrlBody, startsNewline_before ends, List.length_cons,
        if_neg space] at inside
      rw [List.cons_append, readUrlBody, readUrlBody, startsNewline_before ends, if_neg space,
        if_neg space]
      split
      next => rfl
      next closing =>
        rw [if_neg closing] at inside
        split
        next breaks =>
          rw [if_pos breaks] at inside
          have later : skipUrl (v ++ [stop]) ≤ v.length := by
            dsimp only at inside
            omega
          rw [skipUrl_before ends rest later]
        next whole =>
          rw [if_neg whole] at inside
          split
          next escape =>
            rw [if_pos escape] at inside
            split
            next newline =>
              rw [if_pos newline] at inside
              have later : skipUrl (v ++ [stop]) ≤ v.length := by
                dsimp only at inside
                omega
              rw [skipUrl_before ends rest later]
            next newline =>
              rw [if_neg newline] at inside
              dsimp only at inside ⊢
              have within : (readEscape (v ++ [stop])).2 ≤ v.length := by omega
              have here := readEscape_before ends rest within
              have alone := readEscape_before ends [] within
              rw [alone] at within inside
              rw [drop_before [] within] at inside
              rw [here, drop_before rest within]
              have later : (readUrlBody (v.drop (readEscape v).2 ++ [stop])).2 ≤
                  (v.drop (readEscape v).2).length := by
                rw [List.length_drop]
                omega
              rw [readUrlBody_before later]
          next escape =>
            rw [if_neg escape] at inside
            have later : (readUrlBody (v ++ [stop])).2 ≤ v.length := by
              dsimp only at inside
              omega
            rw [readUrlBody_before later]
termination_by v.length

theorem readUrl_before {v : Text}
    (inside : ∀ found ∈ readUrl (v ++ [stop]), found.2 ≤ v.length) :
    readUrl (v ++ stop :: rest) = readUrl v := by
  have double : stop ≠ '"' := ends.ne (by decide)
  have single : stop ≠ '\'' := ends.ne (by decide)
  rw [readUrl] at inside
  have within : ((v ++ [stop]).takeWhile isSpace).length ≤ v.length := by
    have size := length_takeWhile_add isSpace (v ++ [stop])
    rw [List.length_append, List.length_singleton] at size
    split at inside
    next quoted =>
      cases left : (v ++ [stop]).dropWhile isSpace with
      | nil =>
          rw [left] at quoted
          rcases quoted with quoted | quoted <;> cases quoted
      | cons d more =>
          rw [left, List.length_cons] at size
          omega
    next =>
      split at inside
      all_goals
        have bound := inside _ rfl
        dsimp only at bound
        omega
  rw [takeWhile_before [] isSpace within, dropWhile_before [] isSpace within] at inside
  rw [readUrl, readUrl, takeWhile_before rest isSpace within,
    dropWhile_before rest isSpace within]
  have size := length_takeWhile_add isSpace v
  simp only [head?_before _ double, head?_before _ single] at inside ⊢
  split
  next => rfl
  next plain =>
    rw [if_neg plain] at inside
    have later : (readUrlBody (v.dropWhile isSpace ++ [stop])).2 ≤
        (v.dropWhile isSpace).length := by
      split at inside
      all_goals
        next same =>
          have bound := inside _ rfl
          rw [same]
          dsimp only at bound ⊢
          omega
    have alone := readUrlBody_before ends [] later
    rw [alone] at later
    rw [readUrlBody_before ends rest (alone ▸ later)]
    cases body : readUrlBody (v.dropWhile isSpace) with
    | mk value taken =>
        rw [body] at later
        cases value with
        | some value => rfl
        | none =>
            dsimp only at later ⊢
            rw [List.take_append_of_le_length later]

theorem readComment_before {v : Text} (inside : (readComment (v ++ [stop])).2 ≤ v.length) :
    readComment (v ++ stop :: rest) = readComment v := by
  have slash : stop ≠ '/' := ends.ne (by decide)
  cases v with
  | nil => exact absurd inside (by simp [readComment])
  | cons c v =>
      by_cases closes : c = '*' ∧ v.head? = some '/'
      · obtain ⟨rfl, second⟩ := closes
        cases v with
        | nil => cases second
        | cons d v =>
            cases second
            rfl
      · have goes (w : Text) : ¬(c = '*' ∧ (v ++ stop :: w).head? = some '/') := by
          rwa [head?_before w slash]
        rw [List.cons_append, readComment_cons (goes []), List.length_cons] at inside
        have later : (readComment (v ++ [stop])).2 ≤ v.length := by
          dsimp only at inside
          omega
        rw [List.cons_append, readComment_cons (goes rest), readComment_cons closes,
          readComment_before later]
termination_by v.length

end Before

end Swatch
