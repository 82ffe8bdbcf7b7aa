/-
Module: Swatch.Proofs.Endings
Purpose: A text whose last token is complete is cut in the same way whatever follows the mark
  behind it: only an open string, address or comment and an open escape go on over its end.
Main exports:
  lastBare?, Token.isCut, Sealed, readName_over, readString_over, readUrl_over, scan_over,
  cutsBefore_of_complete, tokens_append_sealed
-/
import Swatch.Proofs.Cutting

namespace Swatch

/-!
### The end of a text
-/

/-- The last character of a text, unless a backslash before it hides it. -/
def lastBare? : Text → Option Char
  | [] => none
  | [c] => some c
  | c :: d :: s => if c = '\\' then lastBare? s else lastBare? (d :: s)

/-- Whether the end of the text cuts off a token with this source text: a string, an address or a
comment is open, or nothing stands behind a backslash. -/
def Token.isCut (text : Text) : Token → Bool
  | .string _ => lastBare? text.tail != text.head?
  | .url _ => lastBare? text != some ')'
  | .badUrl contents => !decide (contents ++ [')'] <:+ text)
  | .comment inside => text != "/*".toList ++ inside ++ "*/".toList
  | _ => lastBare? text == some '\\'

/-- A text whose last token is complete: a mark behind it is read as a mark. -/
def Sealed (s : Text) : Prop := ∀ l ∈ (lexemes s).getLast?, l.token.isCut l.text = false

instance (s : Text) : Decidable (Sealed s) := inferInstanceAs (Decidable (∀ _ ∈ _, _))

/-- A text that hides nothing of what follows it, and in which no character that is not hidden
is `m`: it does not count for whether `m` stands bare at the end. -/
def Passes (m : Char) (x : Text) : Prop :=
  ∀ w, lastBare? (x ++ w) = some m ↔ lastBare? w = some m

section Passes

variable {m : Char}

theorem Passes.nil : Passes m [] := fun _ => Iff.rfl

theorem Passes.append {x y : Text} (first : Passes m x) (second : Passes m y) :
    Passes m (x ++ y) := by
  intro w
  rw [List.append_assoc, first, second]

theorem Passes.plain {c : Char} (escape : c ≠ '\\') (other : c ≠ m) : Passes m [c] := by
  intro w
  cases w with
  | nil => simp [lastBare?, other]
  | cons d w => simp [lastBare?, escape]

theorem Passes.pair (d : Char) : Passes m ['\\', d] := by
  intro w
  simp [lastBare?]

theorem Passes.all {x : Text} (plain : ∀ c ∈ x, c ≠ '\\' ∧ c ≠ m) : Passes m x := by
  induction x with
  | nil => exact .nil
  | cons c x ih =>
      obtain ⟨escape, other⟩ := plain c (by simp)
      exact (Passes.plain escape other).append (ih fun d member => plain d (by simp [member]))

/-- What passes does not end in the mark. -/
theorem Passes.last {x : Text} (passes : Passes m x) : lastBare? x ≠ some m := by
  intro last
  have none := (passes []).mp (by rw [List.append_nil]; exact last)
  cases none

end Passes

/-!
### Parts of tokens
-/

/-- A mark that is no part of names and no space: a quote, a closing bracket or a backslash. -/
def IsMark (m : Char) : Prop := isNameChar m = false ∧ isSpace m = false

instance (m : Char) : Decidable (IsMark m) := inferInstanceAs (Decidable (_ ∧ _))

/-- The text of a number is made of digits, signs, points and the letter of an exponent. -/
theorem class_of_mem_readWritten {v : Text} {c : Char} (member : c ∈ (readWritten v).text) :
    c.isDigit = true ∨ c ∈ ['+', '-', '.', 'e', 'E'] := by
  have digit {s : Text} (member : c ∈ leadingDigits s) : c.isDigit = true :=
    List.mem_takeWhile_imp member
  have sign {s : Text} (member : c ∈ (leadingSign s).toList) : c = '+' ∨ c = '-' := by
    rw [Option.mem_toList, leadingSign, Option.filter_eq_some_iff] at member
    simpa using member.2
  have fraction {s : Text} (member : c ∈ Written.fractionText (leadingFraction s)) :
      c.isDigit = true ∨ c = '.' := by
    rw [leadingFraction.eq_def] at member
    split at member
    next s =>
      split at member
      next =>
        rcases List.mem_cons.mp member with point | later
        · exact .inr point
        · exact .inl (digit later)
      next => cases member
    next => cases member
  have exponent {s : Text} (member : c ∈ Written.exponentText (leadingExponent s)) :
      c.isDigit = true ∨ c = '+' ∨ c = '-' ∨ c = 'e' ∨ c = 'E' := by
    rw [leadingExponent.eq_def] at member
    split at member
    next e s =>
      split at member
      next begins =>
        rcases List.mem_cons.mp member with rfl | later
        · simp only [Bool.and_eq_true, Bool.or_eq_true, beq_iff_eq] at begins
          exact .inr (.inr (.inr begins.1))
        · rcases List.mem_append.mp later with first | second
          · exact .inr ((sign first).imp_right .inl)
          · exact .inl (digit second)
      next => cases member
    next => cases member
  simp only [readWritten, Written.text, List.mem_append] at member
  simp only [List.mem_cons, List.not_mem_nil, or_false]
  rcases member with ((first | whole) | point) | power
  · exact .inr ((sign first).imp_right .inl)
  · exact .inl (digit whole)
  · exact (fraction point).imp_right fun same => .inr (.inr (.inl same))
  · exact (exponent power).imp_right (Or.imp_right (Or.imp_right .inr))

theorem isHexDigit_of_mem_take {c : Char} (sofar most : Nat) {v : Text}
    (member : c ∈ v.take (readHex sofar most v).2) : isHexDigit c = true := by
  induction v generalizing sofar most with
  | nil => simp at member
  | cons d v ih =>
      cases most with
      | zero => simp [readHex] at member
      | succ most =>
          rw [readHex] at member
          split at member
          next digit =>
            rw [List.take_succ_cons] at member
            rcases List.mem_cons.mp member with rfl | later
            · exact digit
            · exact ih _ most later
          next => simp at member

theorem isSpace_of_mem_take {c : Char} {v : Text} (member : c ∈ v.take (spaceLength v)) :
    isSpace c = true := by
  have newline {d : Char} (newline : isNewline d = true) : isSpace d = true := by
    rw [isSpace, newline, Bool.or_true]
  rw [spaceLength.eq_def] at member
  split at member
  next d v =>
    split at member
    next ends =>
      rw [newlineLength.eq_def] at member
      split at member
      next same =>
        cases same
        have either : c = '\r' ∨ c = '\n' := by simpa using member
        rcases either with rfl | rfl <;> rfl
      next same =>
        cases same
        rw [if_pos ends] at member
        obtain rfl : c = d := by simpa using member
        exact newline ends
      next => simp at member
    next =>
      split at member
      next space =>
        obtain rfl : c = d := by simpa using member
        exact space
      next => simp at member
  next => simp at member

theorem isNameChar_of_isHexDigit {c : Char} (digit : isHexDigit c = true) :
    isNameChar c = true := by
  rw [isHexDigit_iff] at digit
  simp only [isNameChar, isNameStart, Bool.or_eq_true, isAlpha_iff, isDigit_iff]
  omega

section Marks

variable {m : Char} (mark : IsMark m)

include mark

theorem IsMark.ne_of_isNameChar {c : Char} (name : isNameChar c = true) : c ≠ '\\' ∧ c ≠ m := by
  constructor
  · rintro rfl
    cases name
  · rintro rfl
    rw [mark.1] at name
    cases name

theorem IsMark.ne_of_isSpace {c : Char} (space : isSpace c = true) : c ≠ '\\' ∧ c ≠ m := by
  constructor
  · rintro rfl
    cases space
  · rintro rfl
    rw [mark.2] at space
    cases space

/-- An escape passes: it has no bare mark and is complete. -/
theorem passes_readEscape (d : Char) (w : Text) :
    Passes m ('\\' :: (d :: w).take (readEscape (d :: w)).2) := by
  rw [readEscape]
  split
  next digit =>
    have count : 0 < (readHex 0 6 (d :: w)).2 := by
      rw [readHex, if_pos digit]
      exact Nat.succ_pos _
    generalize hex : readHex 0 6 (d :: w) = read at count
    obtain ⟨code, taken⟩ := read
    dsimp only at count ⊢
    rw [List.take_cons (Nat.add_pos_left count _)]
    refine (Passes.pair d).append (.all ?_)
    intro c member
    have within : c ∈ (d :: w).take (taken + spaceLength ((d :: w).drop taken)) := by
      rw [List.take_cons (Nat.add_pos_left count _)]
      exact List.mem_cons_of_mem d member
    rw [List.take_add] at within
    rcases List.mem_append.mp within with first | second
    · apply mark.ne_of_isNameChar
      apply isNameChar_of_isHexDigit
      exact isHexDigit_of_mem_take 0 6 (by rw [hex]; exact first)
    · exact mark.ne_of_isSpace (isSpace_of_mem_take second)
  next => exact .pair d

/-- What stands bare at the end of a text does so behind an escape. -/
theorem lastBare?_escape (d : Char) (w : Text) :
    lastBare? ('\\' :: d :: w) = some m ↔
      lastBare? ((d :: w).drop (readEscape (d :: w)).2) = some m := by
  have passes := passes_readEscape mark d w ((d :: w).drop (readEscape (d :: w)).2)
  rw [List.cons_append, List.take_append_drop] at passes
  exact passes

/-- A hidden end of a line passes. -/
theorem passes_newline {v : Text} (hides : startsNewline v = true) :
    Passes m ('\\' :: v.take (newlineLength v)) := by
  rw [newlineLength.eq_def]
  split
  next v =>
    have feed : '\n' ≠ '\\' ∧ '\n' ≠ m := mark.ne_of_isSpace rfl
    exact (Passes.pair '\r').append (.plain feed.1 feed.2)
  next c v _ =>
    have newline : isNewline c = true := hides
    rw [if_pos newline]
    exact .pair c
  next => cases hides

/-- A name before the end of a text passes. -/
theorem passes_readName {v : Text} (inside : (readName v).2 < v.length) :
    Passes m (v.take (readName v).2) := by
  cases v with
  | nil => exact absurd inside (Nat.not_lt_zero _)
  | cons c v =>
      rw [readName] at inside ⊢
      split
      next escape =>
        subst escape
        rw [if_pos rfl] at inside
        split
        next => exact .nil
        next newline =>
          rw [if_neg newline] at inside
          cases v with
          | nil =>
              dsimp only [readEscape] at inside
              exact absurd inside (by simp)
          | cons d v =>
              dsimp only at inside ⊢
              have later : (readName ((d :: v).drop (readEscape (d :: v)).2)).2 <
                  ((d :: v).drop (readEscape (d :: v)).2).length := by
                rw [List.length_drop]
                rw [List.length_cons] at inside
                omega
              rw [Nat.add_assoc, Nat.add_comm 1, List.take_succ_cons, List.take_add,
                ← List.cons_append]
              exact (passes_readEscape mark d v).append (passes_readName later)
      next escape =>
        rw [if_neg escape] at inside
        split
        next name =>
          rw [if_pos name, List.length_cons] at inside
          dsimp only at inside ⊢
          have later : (readName v).2 < v.length := by omega
          rw [Nat.add_comm 1, List.take_succ_cons]
          have plain := mark.ne_of_isNameChar name
          exact (Passes.plain plain.1 plain.2).append (passes_readName later)
        next => exact .nil
termination_by v.length

end Marks

theorem eq_of_concat_eq_cons {b m : Char} {s : Text} (same : s ++ [m] = b :: s) : m = b := by
  induction s generalizing b with
  | nil => exact (List.cons.inj same).1
  | cons c s ih =>
      obtain ⟨rfl, later⟩ := List.cons.inj same
      exact ih later

/-- A text does not end in `s` and in `s` with the mark behind it, unless the mark is before
`s` too. -/
theorem not_concat_suffix {m : Char} {front before s : Text} (nonempty : before ≠ [])
    (other : ∀ c ∈ before, c ≠ m) : ¬s ++ [m] <:+ front ++ before ++ s := by
  intro suffix
  have last := List.dropLast_concat_getLast nonempty
  have whole : front ++ before ++ s =
      (front ++ before.dropLast) ++ before.getLast nonempty :: s := by
    conv => lhs; rw [← last]
    simp
  rw [whole] at suffix
  have shorter := List.suffix_of_suffix_length_le suffix (List.suffix_append _ _) (by simp)
  have same := shorter.eq_of_length (by simp)
  exact other _ (List.getLast_mem nonempty) (eq_of_concat_eq_cons same).symm

theorem readPunctuation_nil (c : Char) : (readPunctuation c []).2 = 0 := by
  rw [readPunctuation.eq_def]
  split
  all_goals first | rfl | contradiction

theorem readPunctuation_equals_le (c : Char) : (readPunctuation c ['=']).2 ≤ 1 := by
  rw [readPunctuation.eq_def]
  split
  any_goals exact Nat.zero_le _
  next same => cases same
  next same => cases same
  next same => cases same
  next =>
    split
    next => exact Nat.le_refl 1
    next => exact Nat.zero_le _

/-!
### Reading over the end

A reader reads over the end of a text if it takes the character behind the text too.  Then it
takes the whole text where nothing follows, and leaves something open.
-/

section Over

variable {stop : Char} (ends : EndsText stop) (visible : isSpace stop = false)

include ends visible

theorem spaceLength_le_append (v : Text) : spaceLength (v ++ [stop]) ≤ v.length := by
  cases v with
  | nil =>
      have newline : isNewline stop = false := ends.outside isNewline rfl
      simp [spaceLength, newline, visible]
  | cons c v =>
      rw [List.cons_append, spaceLength, ← List.cons_append, newlineLength_before ends]
      have within := newlineLength_le (c :: v)
      split
      next => exact within
      next =>
        split
        next => exact Nat.succ_le_succ (Nat.zero_le _)
        next => exact Nat.zero_le _

/-- An escape goes over the end only if the backslash is the last character. -/
theorem readEscape_append (c : Char) (v : Text) :
    (readEscape (c :: v)).2 ≤ (c :: v).length ∧
      readEscape (c :: v ++ [stop]) = readEscape (c :: v) ∧
      (c :: v ++ [stop]).drop (readEscape (c :: v)).2 =
        (c :: v).drop (readEscape (c :: v)).2 ++ [stop] := by
  have inside : (readEscape (c :: v ++ [stop])).2 ≤ (c :: v).length := by
    rw [List.cons_append, readEscape, ← List.cons_append, readHex_before ends]
    split
    next =>
      have taken := readHex_le 0 6 (c :: v)
      generalize readHex 0 6 (c :: v) = hex at taken
      obtain ⟨code, count⟩ := hex
      dsimp only at taken ⊢
      have space := spaceLength_le_append ends visible ((c :: v).drop count)
      rw [← drop_before [] taken, List.length_drop] at space
      omega
    next => exact Nat.succ_le_succ (Nat.zero_le _)
  have alone := readEscape_before ends [] inside
  rw [alone] at inside
  exact ⟨inside, alone, drop_before [] inside⟩

/-- A name goes over the end only if a backslash stands there. -/
theorem readName_over {v : Text} (past : v.length < (readName (v ++ [stop])).2) :
    (readName v).2 = v.length ∧ lastBare? v = some '\\' := by
  cases v with
  | nil =>
      have escape : stop ≠ '\\' := ends.ne (by decide)
      have name : ¬isNameChar stop = true := by simp [ends.outside isNameChar rfl]
      rw [List.nil_append, readName, if_neg escape, if_neg name] at past
      exact absurd past (Nat.lt_irrefl 0)
  | cons c v =>
      rw [List.cons_append, readName, startsNewline_before ends] at past
      rw [readName]
      split
      next escape =>
        subst escape
        rw [if_pos rfl] at past
        split
        next newline =>
          rw [if_pos newline] at past
          exact absurd past (Nat.not_lt_zero _)
        next newline =>
          rw [if_neg newline] at past
          cases v with
          | nil =>
              have none : readName [] = ([], 0) := by rw [readName]
              rw [readEscape]
              dsimp only
              rw [List.drop_nil, none]
              exact ⟨rfl, rfl⟩
          | cons d v =>
              obtain ⟨within, alone, left⟩ := readEscape_append ends visible d v
              dsimp only at past ⊢
              rw [alone, left] at past
              have later : ((d :: v).drop (readEscape (d :: v)).2).length <
                  (readName ((d :: v).drop (readEscape (d :: v)).2 ++ [stop])).2 := by
                rw [List.length_drop]
                rw [List.length_cons] at past
                omega
              obtain ⟨taken, last⟩ := readName_over later
              refine ⟨?_, ?_⟩
              · have whole : ('\\' :: d :: v).length = (d :: v).length + 1 := rfl
                rw [taken, List.length_drop, whole]
                omega
              · have mark : IsMark '\\' := by decide
                exact (lastBare?_escape mark d v).mpr last
      next escape =>
        rw [if_neg escape] at past
        split
        next name =>
          rw [if_pos name, List.length_cons] at past
          dsimp only at past ⊢
          have later : v.length < (readName (v ++ [stop])).2 := by omega
          obtain ⟨taken, last⟩ := readName_over later
          refine ⟨?_, ?_⟩
          · rw [taken, List.length_cons, Nat.add_comm]
          · exact (Passes.plain escape escape v).mpr last
        next name =>
          rw [if_neg name] at past
          exact absurd past (Nat.not_lt_zero _)
termination_by v.length

/-- A string goes over the end only if it is open: no mark that is not hidden ends it. -/
theorem readString_over {mark : Char} (isMark : IsMark mark) (escape : '\\' ≠ mark) {v : Text}
    (past : v.length < (readString mark (v ++ [stop])).2) :
    (readString mark v).1.2 = false ∧ (readString mark v).2 = v.length ∧
      lastBare? v ≠ some mark := by
  cases v with
  | nil =>
      have empty : readString mark [] = (([], false), 0) := by rw [readString]
      rw [empty]
      exact ⟨rfl, rfl, (Option.some_ne_none mark).symm⟩
  | cons c v =>
      have filled : (v ++ [stop]).isEmpty = false := by simp
      rw [List.cons_append, readString, startsNewline_before ends, filled, List.length_cons]
        at past
      rw [readString, List.length_cons]
      split
      next closing =>
        rw [if_pos closing] at past
        exact absurd past (by simp)
      next closing =>
        rw [if_neg closing] at past
        split
        next newline =>
          rw [if_pos newline] at past
          exact absurd past (Nat.not_lt_zero _)
        next newline =>
          rw [if_neg newline] at past
          split
          next hidden =>
            subst hidden
            rw [if_pos rfl, if_neg Bool.false_ne_true] at past
            cases v with
            | nil => exact ⟨rfl, rfl, by simpa [lastBare?] using escape⟩
            | cons d v =>
                rw [if_neg (by simp)]
                by_cases hides : startsNewline (d :: v) = true
                · rw [if_pos hides] at past
                  rw [if_pos hides]
                  dsimp only at past ⊢
                  have within := newlineLength_le (d :: v)
                  rw [newlineLength_before ends, drop_before [] within] at past
                  have later : ((d :: v).drop (newlineLength (d :: v))).length <
                      (readString mark
                        ((d :: v).drop (newlineLength (d :: v)) ++ [stop])).2 := by
                    rw [List.length_drop]
                    omega
                  obtain ⟨whole, taken, last⟩ := readString_over isMark escape later
                  refine ⟨whole, ?_, ?_⟩
                  · rw [taken, List.length_drop]
                    omega
                  · have passes := passes_newline isMark hides
                      ((d :: v).drop (newlineLength (d :: v)))
                    rw [List.cons_append, List.take_append_drop] at passes
                    exact fun bare => last (passes.mp bare)
                · rw [if_neg hides] at past
                  rw [if_neg hides]
                  dsimp only at past ⊢
                  obtain ⟨within, alone, left⟩ := readEscape_append ends visible d v
                  rw [alone, left] at past
                  have later : ((d :: v).drop (readEscape (d :: v)).2).length <
                      (readString mark
                        ((d :: v).drop (readEscape (d :: v)).2 ++ [stop])).2 := by
                    rw [List.length_drop]
                    omega
                  obtain ⟨whole, taken, last⟩ := readString_over isMark escape later
                  refine ⟨whole, ?_, ?_⟩
                  · rw [taken, List.length_drop]
                    omega
                  · exact fun bare => last ((lastBare?_escape isMark d v).mp bare)
          next plain =>
            rw [if_neg plain] at past
            have later : v.length < (readString mark (v ++ [stop])).2 := by
              dsimp only at past
              omega
            obtain ⟨whole, taken, last⟩ := readString_over isMark escape later
            refine ⟨whole, ?_, ?_⟩
            · dsimp only
              rw [taken, Nat.add_comm]
            · exact fun bare => last ((Passes.plain plain closing v).mp bare)
termination_by v.length

omit visible in
/-- A malformed address that reaches the end has no closing bracket. -/
theorem skipUrl_over {v : Text} (reaches : v.length ≤ skipUrl (v ++ [stop])) :
    skipUrl v = v.length := by
  have closing : stop ≠ ')' := ends.ne (by decide)
  have escape : stop ≠ '\\' := ends.ne (by decide)
  cases v with
  | nil => rfl
  | cons c v =>
      rw [List.cons_append, skipUrl_cons, List.length_cons] at reaches
      rw [skipUrl_cons, List.length_cons]
      simp only [head?_before [] closing, head?_before [] escape] at reaches
      split
      next hides =>
        rw [if_pos hides] at reaches
        cases v with
        | nil => simp at hides
        | cons d v =>
            rw [List.cons_append, List.tail_cons, List.length_cons] at reaches
            have later : v.length ≤ skipUrl (v ++ [stop]) := by omega
            rw [List.tail_cons, skipUrl_over later, List.length_cons]
            omega
      next hides =>
        rw [if_neg hides] at reaches
        split
        next closes =>
          rw [if_pos closes] at reaches
          exact absurd reaches (Nat.not_succ_le_zero _)
        next open_ =>
          rw [if_neg open_] at reaches
          have later : v.length ≤ skipUrl (v ++ [stop]) := by omega
          rw [skipUrl_over later, Nat.add_comm]
termination_by v.length

/-- After spaces an address ends: its bracket stands there, or it is malformed. -/
theorem readUrlBody_space_over {c : Char} {v : Text} (space : isSpace c = true)
    (reaches : (c :: v).length ≤ (readUrlBody (c :: v ++ [stop])).2)
    (past : (readUrlBody (c :: v ++ [stop])).1.isSome →
      (c :: v).length < (readUrlBody (c :: v ++ [stop])).2) :
    (readUrlBody (c :: v)).2 = (c :: v).length ∧
      ((readUrlBody (c :: v)).1.isSome → lastBare? (c :: v) ≠ some ')') := by
  have closing : c ≠ ')' := by
    rintro rfl
    cases space
  have within := takeWhile_le_append visible v
  have size := length_takeWhile_add isSpace v
  rw [List.cons_append, readUrlBody, if_neg closing, if_pos space, List.length_cons,
    takeWhile_before [] isSpace within, dropWhile_before [] isSpace within] at reaches past
  rw [readUrlBody, if_neg closing, if_pos space, List.length_cons]
  cases left : v.dropWhile isSpace with
  | nil =>
      rw [left, List.length_nil] at size
      refine ⟨?_, ?_⟩
      · dsimp only
        omega
      · intro _
        have bracket : IsMark ')' := by decide
        apply Passes.last
        apply Passes.all
        intro d member
        apply bracket.ne_of_isSpace
        rcases List.mem_cons.mp member with rfl | later
        · exact space
        · rw [← List.takeWhile_append_dropWhile (l := v), left, List.append_nil] at later
          exact List.mem_takeWhile_imp later
  | cons d more =>
      rw [left, List.length_cons] at size
      rw [left, List.cons_append] at reaches past
      dsimp only at reaches past ⊢
      split
      next closes =>
        rw [if_pos closes] at past
        have beyond := past rfl
        dsimp only at beyond
        omega
      next closes =>
        rw [if_neg closes] at reaches
        have later : more.length ≤ skipUrl (more ++ [stop]) := by
          dsimp only at reaches
          omega
        refine ⟨?_, fun some => absurd some Bool.false_ne_true⟩
        dsimp only
        rw [skipUrl_over ends later]
        omega

/-- An address that reaches the end is taken as a whole, and if it is well formed so far and goes
over the end, it is open.  The closing bracket of a malformed one is not counted. -/
theorem readUrlBody_over {v : Text} (reaches : v.length ≤ (readUrlBody (v ++ [stop])).2)
    (past : (readUrlBody (v ++ [stop])).1.isSome → v.length < (readUrlBody (v ++ [stop])).2) :
    (readUrlBody v).2 = v.length ∧ ((readUrlBody v).1.isSome → lastBare? v ≠ some ')') := by
  cases v with
  | nil =>
      have empty : readUrlBody [] = (some [], 0) := by rw [readUrlBody]
      rw [empty]
      exact ⟨rfl, fun _ => (Option.some_ne_none ')').symm⟩
  | cons c v =>
      by_cases space : isSpace c = true
      · exact readUrlBody_space_over ends visible space reaches past
      rw [List.cons_append, readUrlBody, startsNewline_before ends, List.length_cons,
        if_neg space] at reaches past
      rw [readUrlBody, List.length_cons, if_neg space]
      -- the rest of a malformed address
      have malformed (reaches : v.length + 1 ≤ 1 + skipUrl (v ++ [stop])) :
          1 + skipUrl v = v.length + 1 := by
        have later : v.length ≤ skipUrl (v ++ [stop]) := by omega
        rw [skipUrl_over ends later, Nat.add_comm]
      split
      next closing =>
        rw [if_pos closing] at past
        exact absurd (past rfl) (by simp)
      next closing =>
        rw [if_neg closing] at reaches past
        split
        next breaks =>
          rw [if_pos breaks] at reaches
          exact ⟨malformed reaches, fun some => absurd some Bool.false_ne_true⟩
        next whole =>
          rw [if_neg whole] at reaches past
          split
          next escape =>
            subst escape
            rw [if_pos rfl] at reaches past
            split
            next newline =>
              rw [if_pos newline] at reaches
              exact ⟨malformed reaches, fun some => absurd some Bool.false_ne_true⟩
            next newline =>
              rw [if_neg newline] at reaches past
              cases v with
              | nil =>
                  have none : readUrlBody [] = (some [], 0) := by rw [readUrlBody]
                  rw [readEscape]
                  dsimp only
                  rw [List.drop_nil, none]
                  exact ⟨rfl, fun _ => by decide⟩
              | cons d v =>
                  dsimp only at reaches past ⊢
                  obtain ⟨within, alone, left⟩ := readEscape_append ends visible d v
                  rw [alone, left] at reaches past
                  rw [Option.isSome_map] at past
                  have later : ((d :: v).drop (readEscape (d :: v)).2).length ≤
                      (readUrlBody ((d :: v).drop (readEscape (d :: v)).2 ++ [stop])).2 := by
                    rw [List.length_drop]
                    omega
                  obtain ⟨taken, last⟩ := readUrlBody_over later (by
                    intro some
                    have beyond := past some
                    rw [List.length_drop]
                    omega)
                  refine ⟨?_, ?_⟩
                  · rw [taken, List.length_drop]
                    omega
                  · intro some bare
                    have bracket : IsMark ')' := by decide
                    rw [Option.isSome_map] at some
                    exact last some ((lastBare?_escape bracket d v).mp bare)
          next escape =>
            rw [if_neg escape] at reaches past
            dsimp only at reaches past ⊢
            rw [Option.isSome_map] at past
            have later : v.length ≤ (readUrlBody (v ++ [stop])).2 := by omega
            obtain ⟨taken, last⟩ := readUrlBody_over later (by
              intro some
              have beyond := past some
              omega)
            refine ⟨?_, ?_⟩
            · rw [taken, Nat.add_comm]
            · intro some bare
              rw [Option.isSome_map] at some
              exact last some ((Passes.plain escape closing v).mp bare)
termination_by v.length

/-- An address that goes over the end is taken as a whole and is open. -/
theorem readUrl_over {v : Text} {found : Token × Nat} (read : readUrl (v ++ [stop]) = some found)
    (past : v.length < found.2) :
    (∃ value, readUrl v = some (.url value, v.length) ∧ lastBare? v ≠ some ')') ∨
      readUrl v = some (.badUrl (v.dropWhile isSpace), v.length + 1) := by
  have within := takeWhile_le_append visible v
  have size := length_takeWhile_add isSpace v
  have double : stop ≠ '"' := ends.ne (by decide)
  have single : stop ≠ '\'' := ends.ne (by decide)
  have spaces : Passes ')' (v.takeWhile isSpace) := by
    have bracket : IsMark ')' := by decide
    apply Passes.all
    intro c member
    exact bracket.ne_of_isSpace (List.mem_takeWhile_imp member)
  have last : lastBare? v = some ')' ↔ lastBare? (v.dropWhile isSpace) = some ')' := by
    have passes := spaces (v.dropWhile isSpace)
    rw [List.takeWhile_append_dropWhile] at passes
    exact passes
  rw [readUrl, takeWhile_before [] isSpace within, dropWhile_before [] isSpace within] at read
  simp only [head?_before [] double, head?_before [] single] at read
  rw [readUrl]
  split
  next quoted =>
    rw [if_pos quoted] at read
    cases read
  next plain =>
    rw [if_neg plain] at read
    have body : (readUrlBody (v.dropWhile isSpace)).2 = (v.dropWhile isSpace).length ∧
        ((readUrlBody (v.dropWhile isSpace)).1.isSome →
          lastBare? (v.dropWhile isSpace) ≠ some ')') := by
      cases inner : readUrlBody (v.dropWhile isSpace ++ [stop]) with
      | mk value taken =>
          rw [inner] at read
          cases value with
          | some value =>
              cases read
              dsimp only at past
              have beyond : (v.dropWhile isSpace).length < taken := by omega
              apply readUrlBody_over ends visible
              · rw [inner]
                exact Nat.le_of_lt beyond
              · rw [inner]
                exact fun _ => beyond
          | none =>
              cases read
              dsimp only at past
              apply readUrlBody_over ends visible
              · rw [inner]
                dsimp only
                omega
              · rw [inner]
                exact fun some => absurd some Bool.false_ne_true
    cases inner : readUrlBody (v.dropWhile isSpace) with
    | mk value taken =>
        rw [inner] at body
        obtain ⟨whole, open_⟩ := body
        dsimp only at whole
        subst whole
        cases value with
        | some value =>
            left
            refine ⟨value, ?_, ?_⟩
            · dsimp only
              rw [size]
            · rw [Ne, last]
              exact open_ rfl
        | none =>
            right
            dsimp only
            rw [List.take_length, size]

omit visible in
/-- A comment that goes over the end is open. -/
theorem readComment_over {v : Text} (past : v.length < (readComment (v ++ [stop])).2) :
    readComment v = (v, v.length) := by
  have slash : stop ≠ '/' := ends.ne (by decide)
  cases v with
  | nil => rfl
  | cons c v =>
      by_cases closes : c = '*' ∧ v.head? = some '/'
      · obtain ⟨rfl, second⟩ := closes
        cases v with
        | nil => cases second
        | cons d v =>
            cases second
            rw [List.cons_append, List.cons_append, readComment] at past
            exact absurd past (by simp)
      · have goes : ¬(c = '*' ∧ (v ++ [stop]).head? = some '/') := by
          rwa [head?_before [] slash]
        rw [List.cons_append, readComment_cons goes, List.length_cons] at past
        have later : v.length < (readComment (v ++ [stop])).2 := by
          dsimp only at past
          omega
        rw [readComment_cons closes, readComment_over later, List.length_cons, Nat.add_comm]
termination_by v.length

/-- A number with its unit goes over the end only if a backslash stands there. -/
theorem readNumeric_over {v : Text} (past : v.length < (readNumeric (v ++ [stop])).2) :
    (readNumeric v).2 = v.length ∧ (readNumeric v).1.isCut v = true := by
  have written := readWritten_isPrefix v
  have percent : stop ≠ '%' := ends.ne (by decide)
  simp only [readNumeric, readWritten_before ends, drop_before _ written.length_le,
    head?_before _ percent, startsName_before ends] at past ⊢
  have size : ((v.drop (readWritten v).text.length)).length =
      v.length - (readWritten v).text.length := List.length_drop
  have bound := written.length_le
  split
  next mark =>
    rw [if_pos mark] at past
    obtain ⟨rest, left⟩ := List.head?_eq_some_iff.mp mark
    rw [left, List.length_cons] at size
    dsimp only at past
    omega
  next plain =>
    rw [if_neg plain] at past
    split
    next unit =>
      rw [if_pos unit] at past
      dsimp only at past ⊢
      have later : (v.drop (readWritten v).text.length).length <
          (readName (v.drop (readWritten v).text.length ++ [stop])).2 := by omega
      obtain ⟨taken, last⟩ := readName_over ends visible later
      refine ⟨by omega, ?_⟩
      have passes : Passes '\\' (readWritten v).text := by
        apply Passes.all
        intro c member
        have other : c ≠ '\\' := by
          rintro rfl
          exact absurd (class_of_mem_readWritten member) (by decide)
        exact ⟨other, other⟩
      have whole := (passes (v.drop (readWritten v).text.length)).mpr last
      rw [List.prefix_iff_eq_append.mp written] at whole
      exact beq_iff_eq.mpr whole
    next unit =>
      rw [if_neg unit] at past
      dsimp only at past
      omega

/-- A word with an address goes over the end only if the address is open. -/
theorem readWord_url_over {v more : Text} (opened : v.drop (readName v).2 = '(' :: more)
    (url : lowercase (readName v).1 = "url".toList) {found : Token × Nat}
    (read : readUrl (more ++ [stop]) = some found) (past : more.length < found.2) :
    v.length ≤ (readWord v).2 ∧ (readWord v).1.isCut v = true := by
  have size : v.length - (readName v).2 = more.length + 1 := by
    rw [← List.length_drop, opened, List.length_cons]
  have mark : IsMark ')' := by decide
  have name : Passes ')' (v.take (readName v).2) := passes_readName mark (by omega)
  have split : v = v.take (readName v).2 ++ '(' :: more := by
    rw [← opened, List.take_append_drop]
  rw [readWord_bracket opened, if_pos url]
  rcases readUrl_over ends visible read past with ⟨value, whole, last⟩ | whole
  · rw [whole]
    refine ⟨by dsimp only; omega, ?_⟩
    have passes := name.append (.plain (c := '(') (by decide) (by decide)) more
    rw [List.append_assoc, List.singleton_append, ← split] at passes
    rw [Token.isCut, bne_iff_ne, Ne, passes]
    exact last
  · rw [whole]
    refine ⟨by dsimp only; omega, ?_⟩
    have other : ∀ c ∈ '(' :: more.takeWhile isSpace, c ≠ ')' := by
      intro c member
      rcases List.mem_cons.mp member with rfl | space
      · decide
      · exact (mark.ne_of_isSpace (List.mem_takeWhile_imp space)).2
    have parts : v = v.take (readName v).2 ++ '(' :: more.takeWhile isSpace ++
        more.dropWhile isSpace := by
      rw [List.append_assoc, List.cons_append, List.takeWhile_append_dropWhile, ← split]
    have closed : ¬more.dropWhile isSpace ++ [')'] <:+ v := by
      rw [parts]
      exact not_concat_suffix (List.cons_ne_nil _ _) other
    rw [Token.isCut, decide_eq_false closed]
    rfl

/-- A word goes over the end only if a backslash stands there or an address is open. -/
theorem readWord_over {v : Text} (past : v.length < (readWord (v ++ [stop])).2) :
    v.length ≤ (readWord v).2 ∧ (readWord v).1.isCut v = true := by
  by_cases within : (readName (v ++ [stop])).2 ≤ v.length
  · have alone := readName_before ends [] within
    rw [alone] at within
    have left : (v ++ [stop]).drop (readName v).2 = v.drop (readName v).2 ++ [stop] :=
      drop_before [] within
    by_cases bracket : (v.drop (readName v).2).head? = some '('
    · obtain ⟨more, opened⟩ := List.head?_eq_some_iff.mp bracket
      have size : v.length - (readName v).2 = more.length + 1 := by
        rw [← List.length_drop, opened, List.length_cons]
      have first : (v ++ [stop]).drop (readName (v ++ [stop])).2 = '(' :: (more ++ [stop]) := by
        rw [alone, left, opened]
        rfl
      rw [readWord_bracket first, alone] at past
      by_cases url : lowercase (readName v).1 = "url".toList
      · rw [if_pos url] at past
        cases read : readUrl (more ++ [stop]) with
        | none =>
            rw [read] at past
            dsimp only at past
            omega
        | some found =>
            rw [read] at past
            dsimp only at past
            exact readWord_url_over ends visible opened url read (by omega)
      · rw [if_neg url] at past
        dsimp only at past
        omega
    · have opening : stop ≠ '(' := ends.ne (by decide)
      have plain : ((v ++ [stop]).drop (readName (v ++ [stop])).2).head? ≠ some '(' := by
        rwa [alone, left, Ne, head?_before [] opening]
      rw [readWord_plain plain, alone] at past
      exact absurd within (Nat.not_le_of_lt past)
  · obtain ⟨taken, last⟩ := readName_over ends visible (Nat.lt_of_not_le within)
    have plain : (v.drop (readName v).2).head? ≠ some '(' := by
      rw [taken, List.drop_length]
      exact (Option.some_ne_none '(').symm
    rw [readWord_plain plain]
    exact ⟨Nat.le_of_eq taken.symm, beq_iff_eq.mpr last⟩

omit visible in
/-- Of the marks, only an open comment goes over the end. -/
theorem readPunctuation_over {c : Char} {v : Text}
    (past : v.length < (readPunctuation c (v ++ [stop])).2) :
    (readPunctuation c v).2 = v.length ∧ (readPunctuation c v).1.isCut (c :: v) = true := by
  by_cases comment : c = '/' ∧ ['*'] <+: v
  · obtain ⟨rfl, more, rfl⟩ := comment
    have spelled (w : Text) : readPunctuation '/' ('*' :: w) =
        (.comment (readComment w).1, 1 + (readComment w).2) := rfl
    rw [List.singleton_append, List.cons_append, spelled, List.length_cons] at past
    dsimp only at past
    have later : more.length < (readComment (more ++ [stop])).2 := by omega
    rw [List.singleton_append, spelled, readComment_over ends later]
    refine ⟨Nat.add_comm 1 more.length, ?_⟩
    rw [Token.isCut, bne_iff_ne]
    intro same
    have length := congrArg List.length same
    simp at length
  · have marks : (readPunctuation c (v ++ [stop])).2 ≤ v.length := by
      by_cases close : c = '-' ∧ "->".toList <+: v
      · obtain ⟨rfl, more, rfl⟩ := close
        exact Nat.le_add_left 2 _
      · by_cases open_ : c = '<' ∧ "!--".toList <+: v
        · obtain ⟨rfl, more, rfl⟩ := open_
          exact Nat.le_add_left 3 _
        · by_cases equal : ['='] <+: v
          · obtain ⟨more, rfl⟩ := equal
            have one : (readPunctuation c ('=' :: (more ++ [stop]))).2 ≤ 1 := by
              rw [readPunctuation_equals]
              exact readPunctuation_equals_le c
            exact Nat.le_trans one (Nat.le_add_left 1 _)
          · rw [not_and] at comment close open_
            rw [← prefix_before [] (ends.notMem (by decide))] at comment close open_ equal
            rw [readPunctuation_alone comment close open_ equal, readPunctuation_nil]
            exact Nat.zero_le _
    exact absurd marks (Nat.not_le_of_lt past)

/-- A hash goes over the end only if a backslash stands there. -/
theorem scan_hash_over {v : Text} (past : v.length < (scan '#' (v ++ [stop])).2) :
    v.length ≤ (scan '#' v).2 ∧ (scan '#' v).1.isCut ('#' :: v) = true := by
  have other : stop ≠ '-' := ends.ne (by decide)
  have dash : ((v ++ [stop]).head? == some '-') = (v.head? == some '-') := by
    rw [Bool.eq_iff_iff, beq_iff_eq, beq_iff_eq, head?_before [] other]
  have named (past : v.length < (readName (v ++ [stop])).2) :
      v.length ≤ (readName v).2 ∧ lastBare? ('#' :: v) = some '\\' := by
    obtain ⟨taken, last⟩ := readName_over ends visible past
    have passes : Passes '\\' ['#'] := .plain (by decide) (by decide)
    exact ⟨Nat.le_of_eq taken.symm, (passes v).mpr last⟩
  rw [scan_hash, startsName_before ends, startsWithDigit_before ends, dash] at past
  rw [scan_hash]
  split
  next name =>
    rw [if_pos name] at past
    obtain ⟨taken, last⟩ := named past
    exact ⟨taken, beq_iff_eq.mpr last⟩
  next name =>
    rw [if_neg name] at past
    split
    next digit =>
      rw [if_pos digit] at past
      obtain ⟨taken, last⟩ := named past
      exact ⟨taken, beq_iff_eq.mpr last⟩
    next digit =>
      rw [if_neg digit] at past
      exact absurd past (Nat.not_lt_zero _)

/-- An at-keyword goes over the end only if a backslash stands there. -/
theorem scan_keyword_over {v : Text} (past : v.length < (scan '@' (v ++ [stop])).2) :
    v.length ≤ (scan '@' v).2 ∧ (scan '@' v).1.isCut ('@' :: v) = true := by
  rw [scan_keyword, startsName_before ends] at past
  rw [scan_keyword]
  split
  next name =>
    rw [if_pos name] at past
    obtain ⟨taken, last⟩ := readName_over ends visible past
    have passes : Passes '\\' ['@'] := .plain (by decide) (by decide)
    exact ⟨Nat.le_of_eq taken.symm, beq_iff_eq.mpr ((passes v).mpr last)⟩
  next name =>
    rw [if_neg name] at past
    exact absurd past (Nat.not_lt_zero _)

/-- A token that goes over the end takes the whole text and is cut off. -/
theorem scan_over {c : Char} {v : Text} (past : v.length < (scan c (v ++ [stop])).2) :
    v.length ≤ (scan c v).2 ∧ (scan c v).1.isCut (c :: v) = true := by
  by_cases hash : c = '#'
  · subst hash
    exact scan_hash_over ends visible past
  by_cases keyword : c = '@'
  · subst keyword
    exact scan_keyword_over ends visible past
  rw [scan, if_neg hash, if_neg keyword] at past
  rw [scan, if_neg hash, if_neg keyword]
  split
  next space =>
    rw [if_pos space] at past
    exact absurd (takeWhile_le_append visible v) (Nat.not_le_of_lt past)
  next space =>
    rw [if_neg space] at past
    split
    next quote =>
      rw [if_pos quote] at past
      have mark : IsMark c ∧ '\\' ≠ c := by
        rcases quote with rfl | rfl <;> decide
      obtain ⟨whole, taken, last⟩ := readString_over ends visible mark.1 mark.2 past
      dsimp only
      rw [whole, if_neg Bool.false_ne_true]
      exact ⟨Nat.le_of_eq taken.symm, bne_iff_ne.mpr last⟩
    next quote =>
      rw [if_neg quote, ← List.cons_append, startsNumber_before ends] at past
      split
      next number =>
        rw [if_pos number] at past
        dsimp only at past ⊢
        have later : (c :: v).length < (readNumeric (c :: v ++ [stop])).2 := by
          rw [List.length_cons]
          omega
        obtain ⟨taken, cut⟩ := readNumeric_over ends visible later
        refine ⟨?_, cut⟩
        rw [taken, List.length_cons]
        exact Nat.le_refl _
      next number =>
        rw [if_neg number, startsWord_before ends] at past
        split
        next word =>
          rw [if_pos word] at past
          dsimp only at past ⊢
          have later : (c :: v).length < (readWord (c :: v ++ [stop])).2 := by
            rw [List.length_cons]
            omega
          obtain ⟨taken, cut⟩ := readWord_over ends visible later
          refine ⟨?_, cut⟩
          rw [List.length_cons] at taken
          omega
        next word =>
          rw [if_neg word] at past
          obtain ⟨taken, cut⟩ := readPunctuation_over ends past
          exact ⟨Nat.le_of_eq taken.symm, cut⟩

end Over

/-!
### Complete texts
-/

/-- A complete text ends before any mark behind it. -/
theorem cutsBefore_of_complete {stop : Char} (ends : EndsText stop)
    (visible : isSpace stop = false) (here : Position) {s : Text}
    (complete : ∀ l ∈ (lexemesFrom here s).getLast?, l.token.isCut l.text = false) :
    cutsBefore stop s = true := by
  fun_induction lexemesFrom here s with
  | case1 => rw [cutsBefore]
  | case2 here c v token taken scanned text ih =>
      have within : (scan c (v ++ [stop])).2 ≤ v.length := by
        apply Nat.le_of_not_lt
        intro past
        obtain ⟨reached, cut⟩ := scan_over ends visible past
        rw [scanned] at reached cut
        have all : text = c :: v := congrArg (c :: ·) (List.take_of_length_le reached)
        rw [List.drop_of_length_le reached, lexemesFrom, all] at complete
        have whole : token.isCut (c :: v) = false := complete ⟨_, _, here⟩ rfl
        rw [cut] at whole
        cases whole
      have alone := scan_before ends [] within
      rw [alone, scanned] at within
      have later : cutsBefore stop (v.drop taken) = true := by
        apply ih
        intro l last
        apply complete
        rw [Option.mem_def] at last ⊢
        rw [List.getLast?_cons, last]
        rfl
      rw [cutsBefore, alone, scanned, later, Bool.and_true]
      exact decide_eq_true within

/-- A complete text has its own tokens in its place before a mark. -/
theorem tokens_append_sealed {stop : Char} (ends : EndsText stop) (visible : isSpace stop = false)
    {s : Text} (complete : Sealed s) (rest : Text) :
    tokens (s ++ stop :: rest) = tokens s ++ tokens (stop :: rest) :=
  tokens_append_before ends (cutsBefore_of_complete ends visible {} complete) rest

end Swatch
