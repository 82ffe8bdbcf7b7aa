/-
Module: Swatch.Proofs.Cutting
Purpose: Cutting a text together with a character behind it that ends any token decides how it
  is cut in its place, whatever follows there.
Main exports:
  readNumeric_before, readWord_before, scan_before, cutsBefore, tokens_append_before
-/
import Swatch.Proofs.Boundary

namespace Swatch

/-!
### Parts of a number, words and marks
-/

/-- What is at the start of a text, with what is at the start of the rest. -/
theorem append_isPrefix {x y s : Text} (first : x <+: s) (second : y <+: s.drop x.length) :
    x ++ y <+: s := by
  obtain ⟨rest, rfl⟩ := first
  rw [List.drop_left] at second
  exact (List.prefix_append_right_inj x).mpr second

theorem leadingSign_isPrefix (v : Text) : (leadingSign v).toList <+: v := by
  cases v with
  | nil => exact List.prefix_rfl
  | cons c v =>
      rw [leadingSign, List.head?_cons, Option.filter]
      split
      next => exact ⟨v, rfl⟩
      next => exact List.nil_prefix

theorem leadingDigits_isPrefix (v : Text) : leadingDigits v <+: v := List.takeWhile_prefix _

theorem leadingFraction_isPrefix (v : Text) : Written.fractionText (leadingFraction v) <+: v := by
  rw [leadingFraction.eq_def]
  split
  next v =>
    split
    next => exact List.cons_prefix_cons.mpr ⟨rfl, leadingDigits_isPrefix v⟩
    next => exact List.nil_prefix
  next => exact List.nil_prefix

theorem leadingExponent_isPrefix (v : Text) : Written.exponentText (leadingExponent v) <+: v := by
  rw [leadingExponent.eq_def]
  split
  next e v =>
    split
    next =>
      have parts := append_isPrefix (leadingSign_isPrefix v) (leadingDigits_isPrefix (afterSign v))
      exact List.cons_prefix_cons.mpr ⟨rfl, parts⟩
    next => exact List.nil_prefix
  next => exact List.nil_prefix

/-- A number is the text that it is read from. -/
theorem readWritten_isPrefix (v : Text) : (readWritten v).text <+: v := by
  have whole := append_isPrefix (leadingSign_isPrefix v) (leadingDigits_isPrefix (afterSign v))
  have fraction := append_isPrefix whole (leadingFraction_isPrefix _)
  have exponent := append_isPrefix fraction (leadingExponent_isPrefix _)
  simp only [List.length_append, ← List.drop_drop] at exponent
  exact exponent

/-- A word that is not followed by a bracket ends with its name. -/
theorem readWord_plain {s : Text} (plain : (s.drop (readName s).2).head? ≠ some '(') :
    readWord s = (.ident (readName s).1, (readName s).2) := by
  rw [readWord]
  dsimp only
  split
  next more bracket =>
    rw [bracket] at plain
    exact absurd rfl plain
  next => rfl

theorem readWord_bracket {s more : Text} (bracket : s.drop (readName s).2 = '(' :: more) :
    readWord s =
      match if lowercase (readName s).1 = "url".toList then readUrl more else none with
      | some (token, length) => (token, (readName s).2 + 1 + length)
      | none => (.function (readName s).1, (readName s).2 + 1) := by
  rw [readWord]
  dsimp only
  rw [bracket]
  rfl

theorem readName_le_readWord (s : Text) : (readName s).2 ≤ (readWord s).2 := by
  by_cases bracket : (s.drop (readName s).2).head? = some '('
  · obtain ⟨more, left⟩ := List.head?_eq_some_iff.mp bracket
    rw [readWord_bracket left]
    split
    next => exact Nat.le_trans (Nat.le_add_right _ 1) (Nat.le_add_right _ _)
    next => exact Nat.le_add_right _ 1
  · exact Nat.le_of_eq (congrArg Prod.snd (readWord_plain bracket).symm)

/-- No mark of more than one character starts here. -/
theorem readPunctuation_alone {c : Char} {s : Text} (comment : c = '/' → ¬['*'] <+: s)
    (close : c = '-' → ¬"->".toList <+: s) (open_ : c = '<' → ¬"!--".toList <+: s)
    (equals : ¬['='] <+: s) : readPunctuation c s = readPunctuation c [] := by
  rw [readPunctuation.eq_def]
  split
  any_goals rfl
  next s => exact absurd ⟨s, rfl⟩ (comment rfl)
  next s => exact absurd ⟨s, rfl⟩ (close rfl)
  next s => exact absurd ⟨s, rfl⟩ (open_ rfl)
  next s => exact absurd ⟨_, rfl⟩ equals
  next =>
    symm
    apply readPunctuation.eq_14
    all_goals first | assumption | simp

/-- Only the equals sign counts of what follows it. -/
theorem readPunctuation_equals (c : Char) (s : Text) :
    readPunctuation c ('=' :: s) = readPunctuation c ['='] := by
  rw [readPunctuation.eq_def]
  split
  any_goals rfl
  next same => cases same
  next same => cases same
  next same => cases same
  next same =>
    cases same
    symm
    apply readPunctuation.eq_13
    all_goals assumption
  next other _ _ _ => exact absurd rfl (other _)

theorem scan_hash (s : Text) :
    scan '#' s =
      if startsName s then (.idHash (readName s).1, (readName s).2)
      else if startsWithDigit s || s.head? == some '-' then (.hash (readName s).1, (readName s).2)
      else (.delim '#', 0) := rfl

theorem scan_keyword (s : Text) :
    scan '@' s =
      if startsName s then (.atKeyword (readName s).1, (readName s).2) else (.delim '@', 0) := rfl

section Before

variable {stop : Char} (ends : EndsText stop) (rest : Text)

include ends

/-!
### Numbers and words
-/

theorem leadingDigits_before (v : Text) :
    leadingDigits (v ++ stop :: rest) = leadingDigits v := by
  have digit : stop.isDigit = false := ends.outside Char.isDigit rfl
  exact takeWhile_before rest Char.isDigit (takeWhile_le_append digit v)

theorem startsWithDigit_before (v : Text) :
    startsWithDigit (v ++ stop :: rest) = startsWithDigit v := by
  cases v with
  | nil =>
      have digit : stop.isDigit = false := ends.outside Char.isDigit rfl
      simp [startsWithDigit, digit]
  | cons c v => rfl

theorem leadingSign_before (v : Text) : leadingSign (v ++ stop :: rest) = leadingSign v := by
  cases v with
  | nil =>
      have plus : stop ≠ '+' := ends.ne (by decide)
      have minus : stop ≠ '-' := ends.ne (by decide)
      exact leadingSign_of_ne rest plus minus
  | cons c v => rfl

theorem afterSign_before (v : Text) :
    afterSign (v ++ stop :: rest) = afterSign v ++ stop :: rest := by
  rw [afterSign, afterSign, leadingSign_before ends,
    drop_before rest (leadingSign_isPrefix v).length_le]

theorem leadingFraction_before (v : Text) :
    leadingFraction (v ++ stop :: rest) = leadingFraction v := by
  have point : stop ≠ '.' := ends.ne (by decide)
  cases v with
  | nil => simp [leadingFraction, point]
  | cons c v =>
      by_cases fraction : c = '.'
      · subst fraction
        rw [List.cons_append, leadingFraction, leadingFraction, startsWithDigit_before ends,
          leadingDigits_before ends]
      · simp [leadingFraction, fraction]

theorem leadingExponent_before (v : Text) :
    leadingExponent (v ++ stop :: rest) = leadingExponent v := by
  cases v with
  | nil =>
      have letter : (stop == 'e' || stop == 'E') = false :=
        ends.outside (fun c => c == 'e' || c == 'E') rfl
      rw [List.nil_append, leadingExponent, letter]
      rfl
  | cons c v =>
      rw [List.cons_append, leadingExponent, leadingExponent, afterSign_before ends,
        startsWithDigit_before ends, leadingSign_before ends, leadingDigits_before ends]

theorem readWritten_before (v : Text) : readWritten (v ++ stop :: rest) = readWritten v := by
  simp only [readWritten, afterSign_before ends, leadingSign_before ends,
    leadingDigits_before ends, drop_before rest (leadingDigits_isPrefix _).length_le,
    leadingFraction_before ends, drop_before rest (leadingFraction_isPrefix _).length_le,
    leadingExponent_before ends]

theorem startsNumber_before (v : Text) : startsNumber (v ++ stop :: rest) = startsNumber v := by
  rw [startsNumber, startsNumber, afterSign_before ends, startsWithDigit_before ends,
    leadingFraction_before ends]

theorem readNumeric_before {v : Text} (inside : (readNumeric (v ++ [stop])).2 ≤ v.length) :
    readNumeric (v ++ stop :: rest) = readNumeric v := by
  have written := (readWritten_isPrefix v).length_le
  have percent : stop ≠ '%' := ends.ne (by decide)
  simp only [readNumeric, readWritten_before ends, drop_before _ written,
    head?_before _ percent, startsName_before ends] at inside ⊢
  split
  next => rfl
  next plain =>
    rw [if_neg plain] at inside
    split
    next unit =>
      rw [if_pos unit] at inside
      have later : (readName (v.drop (readWritten v).text.length ++ [stop])).2 ≤
          (v.drop (readWritten v).text.length).length := by
        rw [List.length_drop]
        dsimp only at inside
        omega
      rw [readName_before ends rest later]
    next => rfl

theorem readWord_before {v : Text} (inside : (readWord (v ++ [stop])).2 ≤ v.length) :
    readWord (v ++ stop :: rest) = readWord v := by
  have within := Nat.le_trans (readName_le_readWord (v ++ [stop])) inside
  have here := readName_before ends rest within
  have alone := readName_before ends [] within
  rw [alone] at within
  have left (w : Text) : (v ++ stop :: w).drop (readName v).2 =
      v.drop (readName v).2 ++ stop :: w := drop_before w within
  by_cases bracket : (v.drop (readName v).2).head? = some '('
  · obtain ⟨more, opened⟩ := List.head?_eq_some_iff.mp bracket
    have size : (readName v).2 + 1 + more.length = v.length := by
      have count := congrArg List.length opened
      rw [List.length_drop, List.length_cons] at count
      omega
    have first : (v ++ [stop]).drop (readName (v ++ [stop])).2 = '(' :: (more ++ [stop]) := by
      rw [alone, left, opened]
      rfl
    have second : (v ++ stop :: rest).drop (readName (v ++ stop :: rest)).2 =
        '(' :: (more ++ stop :: rest) := by
      rw [here, left, opened]
      rfl
    rw [readWord_bracket first, alone] at inside
    rw [readWord_bracket second, readWord_bracket opened, here]
    by_cases url : lowercase (readName v).1 = "url".toList
    · rw [if_pos url] at inside
      rw [if_pos url, if_pos url]
      have later : ∀ found ∈ readUrl (more ++ [stop]), found.2 ≤ more.length := by
        intro found address
        rw [address] at inside
        dsimp only at inside
        omega
      rw [readUrl_before ends rest later]
    · rw [if_neg url, if_neg url]
  · have opening : stop ≠ '(' := ends.ne (by decide)
    have plain : ((v ++ stop :: rest).drop (readName (v ++ stop :: rest)).2).head? ≠
        some '(' := by
      rwa [here, left, Ne, head?_before rest opening]
    rw [readWord_plain bracket, readWord_plain plain, here]

/-!
### All tokens
-/

theorem startsWord_before (c : Char) (v : Text) :
    startsWord c (v ++ stop :: rest) = startsWord c v := by
  have other : stop ∉ "->".toList := ends.notMem (by decide)
  rw [startsWord, startsWord, strip?_before rest other, ← List.cons_append,
    startsName_before ends, startsNewline_before ends]

theorem readPunctuation_before (c : Char) {v : Text}
    (inside : (readPunctuation c (v ++ [stop])).2 ≤ v.length) :
    readPunctuation c (v ++ stop :: rest) = readPunctuation c v := by
  have star (w : Text) : ['*'] <+: v ++ stop :: w ↔ ['*'] <+: v :=
    prefix_before w (ends.notMem (by decide)) v
  have close (w : Text) : "->".toList <+: v ++ stop :: w ↔ "->".toList <+: v :=
    prefix_before w (ends.notMem (by decide)) v
  have open_ (w : Text) : "!--".toList <+: v ++ stop :: w ↔ "!--".toList <+: v :=
    prefix_before w (ends.notMem (by decide)) v
  have equals (w : Text) : ['='] <+: v ++ stop :: w ↔ ['='] <+: v :=
    prefix_before w (ends.notMem (by decide)) v
  by_cases comment : c = '/' ∧ ['*'] <+: v
  · obtain ⟨rfl, more, rfl⟩ := comment
    have spelled (w : Text) : readPunctuation '/' ('*' :: w) =
        (.comment (readComment w).1, 1 + (readComment w).2) := rfl
    have later : (readComment (more ++ [stop])).2 ≤ more.length := by
      have count : 1 + (readComment (more ++ [stop])).2 ≤ 1 + more.length := by
        rw [Nat.add_comm 1 more.length]
        exact inside
      exact Nat.le_of_add_le_add_left count
    exact (spelled (more ++ stop :: rest)).trans
      ((readComment_before ends rest later).symm ▸ (spelled more).symm)
  · by_cases closes : c = '-' ∧ "->".toList <+: v
    · obtain ⟨rfl, more, rfl⟩ := closes
      rfl
    · by_cases opens : c = '<' ∧ "!--".toList <+: v
      · obtain ⟨rfl, more, rfl⟩ := opens
        rfl
      · by_cases equal : ['='] <+: v
        · obtain ⟨more, rfl⟩ := equal
          exact (readPunctuation_equals c _).trans (readPunctuation_equals c more).symm
        · rw [not_and] at comment closes opens
          rw [readPunctuation_alone comment closes opens equal]
          rw [← star rest] at comment
          rw [← close rest] at closes
          rw [← open_ rest] at opens
          rw [← equals rest] at equal
          exact readPunctuation_alone comment closes opens equal

theorem scan_hash_before {v : Text} (inside : (scan '#' (v ++ [stop])).2 ≤ v.length) :
    scan '#' (v ++ stop :: rest) = scan '#' v := by
  have other : stop ≠ '-' := ends.ne (by decide)
  have dash (w : Text) : ((v ++ stop :: w).head? == some '-') = (v.head? == some '-') := by
    rw [Bool.eq_iff_iff, beq_iff_eq, beq_iff_eq, head?_before w other]
  rw [scan_hash, startsName_before ends, startsWithDigit_before ends, dash] at inside
  rw [scan_hash, scan_hash, startsName_before ends, startsWithDigit_before ends, dash]
  split
  next name =>
    rw [if_pos name] at inside
    rw [readName_before ends rest inside]
  next name =>
    rw [if_neg name] at inside
    split
    next digit =>
      rw [if_pos digit] at inside
      rw [readName_before ends rest inside]
    next => rfl

theorem scan_keyword_before {v : Text} (inside : (scan '@' (v ++ [stop])).2 ≤ v.length) :
    scan '@' (v ++ stop :: rest) = scan '@' v := by
  rw [scan_keyword, startsName_before ends] at inside
  rw [scan_keyword, scan_keyword, startsName_before ends]
  split
  next name =>
    rw [if_pos name] at inside
    rw [readName_before ends rest inside]
  next => rfl

theorem scan_before {c : Char} {v : Text} (inside : (scan c (v ++ [stop])).2 ≤ v.length) :
    scan c (v ++ stop :: rest) = scan c v := by
  by_cases hash : c = '#'
  · subst hash
    exact scan_hash_before ends rest inside
  by_cases keyword : c = '@'
  · subst keyword
    exact scan_keyword_before ends rest inside
  rw [scan, if_neg hash, if_neg keyword] at inside
  rw [scan, scan, if_neg hash, if_neg hash, if_neg keyword, if_neg keyword]
  split
  next space =>
    rw [if_pos space] at inside
    rw [takeWhile_before rest isSpace inside]
  next space =>
    rw [if_neg space] at inside
    split
    next quote =>
      rw [if_pos quote] at inside
      have other : stop ≠ c := by
        rcases quote with rfl | rfl
        · exact ends.ne (by decide)
        · exact ends.ne (by decide)
      rw [readString_before ends rest other inside]
    next quote =>
      rw [if_neg quote, ← List.cons_append, startsNumber_before ends] at inside
      rw [← List.cons_append, startsNumber_before ends]
      split
      next number =>
        rw [if_pos number] at inside
        have later : (readNumeric (c :: v ++ [stop])).2 ≤ (c :: v).length := by
          dsimp only at inside
          rw [List.length_cons]
          omega
        rw [readNumeric_before ends rest later]
      next number =>
        rw [if_neg number, startsWord_before ends] at inside
        rw [startsWord_before ends]
        split
        next word =>
          rw [if_pos word] at inside
          have later : (readWord (c :: v ++ [stop])).2 ≤ (c :: v).length := by
            dsimp only at inside
            rw [List.length_cons]
            omega
          rw [readWord_before ends rest later]
        next word =>
          rw [if_neg word] at inside
          exact readPunctuation_before ends rest c inside

end Before

/-!
### Cutting a text before its end
-/

/-- Whether the tokens of a text end before the character behind it. -/
def cutsBefore (stop : Char) : Text → Bool
  | [] => true
  | c :: v =>
    let taken := (scan c (v ++ [stop])).2
    decide (taken ≤ v.length) && cutsBefore stop (v.drop taken)
termination_by v => v.length
decreasing_by
  simp only [List.length_drop, List.length_cons]
  omega

/-- A text that is cut before its end has its own tokens in its place. -/
theorem tokens_append_before {stop : Char} (ends : EndsText stop) {w : Text}
    (cuts : cutsBefore stop w = true) (rest : Text) :
    tokens (w ++ stop :: rest) = tokens w ++ tokens (stop :: rest) := by
  cases w with
  | nil =>
      rw [tokens_nil]
      rfl
  | cons c v =>
      rw [cutsBefore] at cuts
      obtain ⟨within, later⟩ := Bool.and_eq_true_iff.mp cuts
      have inside := of_decide_eq_true within
      have here := scan_before ends rest inside
      have alone := scan_before ends [] inside
      rw [alone] at inside later
      rw [List.cons_append, tokens_cons, tokens_cons, here, drop_before rest inside,
        tokens_append_before ends later rest]
      rfl
termination_by w.length

end Swatch
