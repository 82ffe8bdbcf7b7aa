/-
Module: Swatch.Proofs.Behind
Purpose: A token does not go on with what is printed right behind it, unless the two fuse: what
  ends it in the source ends it in print.
Main exports:
  scan_delim_behind, ends_readWord, ends_readNumeric, ends_scan
-/
import Swatch.Proofs.Neighbours

namespace Swatch

/-!
### Marks
-/

section Ends

variable {c : Char} {s r : Text}

/-- A number does not appear behind a mark. -/
theorem not_startsNumber_behind (follows : Follows s r)
    (single : (Token.delim c).fuses (tokens s) = false)
    (number : startsNumber (c :: s) = false) : startsNumber (c :: r) = false := by
  by_cases sign : c = '+' ∨ c = '-'
  · have behind (x : Text) :
        startsNumber (c :: x) = (startsWithDigit x || (leadingFraction x).isSome) := by
      rcases sign with rfl | rfl
      · rfl
      · rfl
    rw [behind] at number ⊢
    rw [follows.noFraction, Option.isSome_none, Bool.or_false, Bool.eq_false_iff]
    intro digit
    obtain ⟨starts, plus, minus⟩ := follows.number digit
    have unsigned : afterSign s = s := by
      cases s with
      | nil => rfl
      | cons d s =>
          exact afterSign_of_ne s (fun same => plus (congrArg some same))
            fun same => minus (congrArg some same)
    rw [startsNumber, unsigned, number] at starts
    cases starts
  · rw [not_or] at sign
    by_cases point : c = '.'
    · subst point
      have digit := follows.noDigit rfl single
      have behind : startsNumber ('.' :: r) = (leadingFraction ('.' :: r)).isSome := rfl
      rw [behind, leadingFraction, digit]
      rfl
    · have digit : c.isDigit = false := by
        rw [startsNumber, afterSign_of_ne s sign.1 sign.2, Bool.or_eq_false_iff] at number
        exact number.1
      exact not_startsNumber r sign.1 sign.2 digit point

/-- Only a mark of one character is read as such. -/
theorem readPunctuation_of_delim {d : Char} (mark : (readPunctuation c s).1 = .delim d) :
    readPunctuation c s = (.delim c, 0) ∧ readPunctuation c [] = (.delim c, 0) := by
  rw [readPunctuation.eq_def] at mark
  split at mark
  all_goals try cases mark
  next =>
    split at mark
    next => cases mark
    next other =>
      constructor
      · rw [readPunctuation.eq_13]
        · rw [other]
        all_goals assumption
      · apply readPunctuation.eq_14
        all_goals first | assumption | simp
  next =>
    constructor
    · apply readPunctuation.eq_14
      all_goals assumption
    · apply readPunctuation.eq_14
      all_goals first | assumption | simp

/-- A hyphen by itself is not what is printed for a word. -/
theorem text_readWord_ne_hyphen (starts : startsName s = true) : (readWord s).1.text ≠ ['-'] := by
  intro hyphen
  rcases readWord_cases s with ⟨value, read, -⟩ | ⟨contents, read⟩ | ⟨read, -⟩ | ⟨read, -⟩
  · rw [read] at hyphen
    cases hyphen
  · rw [read] at hyphen
    cases hyphen
  · rw [read] at hyphen
    have last := congrArg List.getLast? hyphen
    rw [Token.text, List.getLast?_concat] at last
    cases last
  · rw [read] at hyphen
    have name : identText (readName s).1 = ['-'] := hyphen
    have again := (isReadName_readName starts).starts []
    rw [name] at again
    cases again

/-- A hyphen printed by itself stands before neither a name nor a hyphen. -/
theorem scan_of_text_hyphen (fit : Fit c s) (text : (scan c s).1.text = ['-']) :
    (scan c s).1 = .delim '-' ∧ Stops isWordStart (s.drop (scan c s).2) := by
  by_cases starts : startsName (c :: s) = true
  · by_cases mark : c = '-' ∧ "->".toList <+: s
    · obtain ⟨rfl, more, rfl⟩ := mark
      cases text
    · rw [scan_word starts fun hyphen close => mark ⟨hyphen, close⟩] at text
      exact absurd text (text_readWord_ne_hyphen starts)
  · rw [Bool.not_eq_true] at starts
    obtain ⟨d, more, spelled, turns⟩ := fit.turns
    have first : d = '-' := (List.cons.inj (spelled.symm.trans text)).1
    rw [first] at turns
    have hyphen : c = '-' := by
      cases turns with
      | same => rfl
      | digit inside => cases inside
      | word again =>
          rw [again] at starts
          cases starts
    subst hyphen
    have number : startsNumber ('-' :: s) = false := by
      rw [Bool.eq_false_iff]
      intro number
      have settled := fit.settled
      rw [scan_number number] at settled text
      obtain ⟨d, more, spelled, -⟩ := head_readNumeric settled
      rw [spelled] at text
      cases text
    rw [scan_hyphen number starts]
    exact ⟨rfl, not_startsName_hyphen_iff.mp starts⟩

/-- The mark that opens a comment is not printed piece by piece, unless two hyphens are. -/
theorem Follows.noCommentOpen (follows : Follows s r)
    (single : (Token.delim '<').fuses (tokens s) = false) : ¬"!--".toList <+: r := by
  rintro ⟨after, same⟩
  have first : r.head? = some '!' := by rw [← same]; rfl
  have source := follows.head_eq (by decide) first
  cases follows with
  | apart edge =>
      rw [← same] at edge
      cases edge
  | @token c u v fit later =>
      obtain rfl := Option.some.inj source
      have scanned := scan_lone (c := '!') (.inl rfl) u
      rw [scanned] at later same
      have behind := later rfl
      obtain rfl : '-' :: '-' :: after = v := (List.cons.inj same).2
      rw [tokens_mark scanned] at single
      -- the two hyphens are one token, or the first of them is a mark before a hyphen
      generalize hyphens : '-' :: '-' :: after = v at behind
      cases behind with
      | apart edge =>
          rw [← hyphens] at edge
          cases edge
      | @token c u v inner further =>
          obtain ⟨d, more, spelled, -⟩ := inner.turns
          have hyphen : "--".toList.isPrefixOf (d :: more) = false := by
            rw [← spelled]
            rw [tokens_cons, Token.fuses, Bool.or_eq_false_iff] at single
            exact single.2
          rw [spelled, List.cons_append, List.cons.injEq] at hyphens
          obtain ⟨rfl, hyphens⟩ := hyphens
          cases more with
          | cons e more =>
              obtain ⟨rfl, -⟩ := List.cons.inj hyphens
              cases hyphen
          | nil =>
              obtain ⟨scanned, stops⟩ := scan_of_text_hyphen inner spelled
              rw [List.nil_append] at hyphens
              have apart := (further (by rw [scanned]; rfl)).stopsWord stops
              rw [← hyphens] at apart
              cases apart

/-- A mark of one character stays one. -/
theorem scan_mark_behind {d : Char} (follows : Follows s r)
    (settled : (Token.delim d).settled = true) (single : (Token.delim d).fuses (tokens s) = false)
    (space : isSpace c = false) (double : c ≠ '"') (quote : c ≠ '\'') (hash : c ≠ '#')
    (at_ : c ≠ '@') (number : startsNumber (c :: s) = false) (word : startsWord c s = false)
    (scanned : (readPunctuation c s).1 = .delim d) : scan d r = (.delim d, 0) := by
  obtain rfl := readPunctuation_eq_delim scanned
  obtain ⟨read, alone⟩ := readPunctuation_of_delim scanned
  have escape : c ≠ '\\' := by simpa [Token.settled] using settled
  -- only the mark that closes a comment starts like a name and is none
  have starts : startsName (c :: s) = false := by
    rw [Bool.eq_false_iff]
    intro starts
    have again := startsWord_of_startsName starts (by
      rintro rfl ⟨more, rfl⟩
      cases read)
    rw [word] at again
    cases again
  have hyphen : c = '-' → Stops isWordStart r := by
    rintro rfl
    exact follows.stopsWord (not_startsName_hyphen_iff.mp starts)
  have wordless : startsWord c r = false := by
    rw [startsWord]
    split
    next same =>
      subst same
      rw [not_startsName_hyphen_iff.mpr (hyphen rfl), Bool.and_false]
    next other =>
      rw [startsName.eq_3 c _ (fun _ _ same _ => other same) escape] at starts
      simp [starts, escape]
  have numberless := not_startsNumber_behind follows single number
  rw [scan_mark space double quote hash at_ numberless wordless]
  by_cases equals : ['='] <+: r
  · obtain ⟨more, rfl⟩ := equals
    have first := follows.head_eq (by decide) rfl
    obtain ⟨tail, rfl⟩ := List.head?_eq_some_iff.mp first
    rw [readPunctuation_equals] at read
    rw [List.singleton_append, readPunctuation_equals, read]
  · rw [← alone]
    refine readPunctuation_alone ?_ ?_ ?_ equals
    · rintro rfl ⟨more, rfl⟩
      have first := follows.head_eq (by decide) rfl
      obtain ⟨tail, rfl⟩ := List.head?_eq_some_iff.mp first
      cases read
    · rintro rfl ⟨more, rfl⟩
      have stops := hyphen rfl
      cases stops
    · rintro rfl
      exact follows.noCommentOpen single

/-- A token of one character stays one. -/
theorem scan_delim_behind {d : Char} (follows : Follows (s.drop (scan c s).2) r)
    (settled : (Token.delim d).settled = true)
    (single : (Token.delim d).fuses (tokens (s.drop (scan c s).2)) = false)
    (scanned : (scan c s).1 = .delim d) : scan d r = (.delim d, 0) := by
  have kind := scanned_scan c s
  generalize (scan c s).1 = t at kind scanned
  generalize (scan c s).2 = taken at kind follows single
  cases kind with
  | space blank => cases scanned
  | string quote read => cases scanned
  | badString quote read => cases scanned
  | idHash starts => cases scanned
  | hash starts first => cases scanned
  | atKeyword starts => cases scanned
  | number starts => exact absurd scanned (readNumeric_ne_delim _ d)
  | word number starts => exact absurd scanned (readWord_ne_delim _ d)
  | loneHash starts digit hyphen =>
      cases scanned
      have noName := follows.noName starts
      have noDigit := follows.noDigit rfl single
      have noHyphen := follows.noHyphen starts hyphen
      simp [scan, isSpace, isNewline, noName, noDigit, noHyphen]
  | loneAt starts =>
      cases scanned
      have noName := follows.noName starts
      simp [scan, isSpace, isNewline, noName]
  | mark space double quote hash at_ number word =>
      rw [(readPunctuation_of_delim scanned).1] at follows single
      exact scan_mark_behind follows settled single space double quote hash at_ number word scanned

/-!
### All tokens
-/

/-- A name ends in print where it ends in the source. -/
theorem Follows.endsName {t : Token} (follows : Follows (s.drop (readName s).2) r)
    (takes : t.takesDigits = true) (single : t.fuses (tokens (s.drop (readName s).2)) = false) :
    Stops continuesName r :=
  follows.stopsName (endsName_readName s) (follows.noDigit takes single)

/-- A word ends in print where it ends in the source; a function named like an address is none as
long as no address is printed behind it. -/
theorem ends_readWord
    (single : (readWord s).1.fuses (tokens (s.drop (readWord s).2)) = false)
    (follows : (readWord s).1.opens? = none → Follows (s.drop (readWord s).2) r)
    (address : ∀ name, (readWord s).1 = .function name → lowercase name = "url".toList →
      readUrl r = none) : (readWord s).1.Ends r := by
  rcases readWord_cases s with
    ⟨value, read, -⟩ | ⟨contents, read⟩ | ⟨read, -⟩ | ⟨read, bracket⟩
  · rw [read]
    trivial
  · rw [read]
    trivial
  · rw [read] at address ⊢
    exact address _ rfl
  · rw [read] at single follows ⊢
    have behind := follows rfl
    refine ⟨behind.endsName rfl single, fun first => bracket ?_, fun name first => ?_⟩
    · exact behind.head_eq (by decide) first
    · have source := behind.head_eq (by decide) first
      obtain ⟨more, left⟩ := List.head?_eq_some_iff.mp source
      rw [left, name, tokens_mark (scan_lone (.inr rfl) more), Token.fuses,
        Bool.or_eq_false_iff, Bool.or_eq_false_iff] at single
      cases single.1.2

/-- A number ends in print where it ends in the source. -/
theorem ends_readNumeric
    (single : (readNumeric s).1.fuses (tokens (s.drop (readNumeric s).2)) = false)
    (follows : (readNumeric s).1.opens? = none → Follows (s.drop (readNumeric s).2) r) :
    (readNumeric s).1.Ends r := by
  rw [readNumeric] at single follows ⊢
  dsimp only at single follows ⊢
  split
  next => trivial
  next percent =>
    rw [if_neg percent] at single follows
    split
    next unit =>
      rw [if_pos unit] at single follows
      dsimp only at single follows
      rw [← List.drop_drop] at single follows
      exact (follows rfl).endsName (t := .dimension _ _) rfl single
    next unit =>
      rw [if_neg unit] at single follows
      have behind := follows rfl
      have digit := behind.noDigit (t := .number _) rfl single
      refine ⟨digit, behind.noFraction, fun first => percent ?_,
        behind.noName (Bool.not_eq_true _ ▸ unit)⟩
      exact behind.head_eq (by decide) first

/-- A mark of several characters ends by itself. -/
theorem ends_readPunctuation (other : ¬∃ d, (readPunctuation c s).1 = .delim d) (r : Text) :
    (readPunctuation c s).1.Ends r := by
  revert other
  rw [readPunctuation.eq_def]
  split
  all_goals intro other
  any_goals trivial
  next =>
    split
    next => trivial
    next none => exact absurd ⟨_, by rw [none]⟩ other
  next => exact absurd ⟨_, rfl⟩ other

/-- The first token of a text ends in print before what is printed for the rest of the text. -/
theorem ends_scan (settled : (scan c s).1.settled = true)
    (single : (scan c s).1.fuses (tokens (s.drop (scan c s).2)) = false)
    (follows : (scan c s).1.opens? = none → Follows (s.drop (scan c s).2) r)
    (address : ∀ name, (scan c s).1 = .function name → lowercase name = "url".toList →
      readUrl r = none) : (scan c s).1.Ends r := by
  by_cases mark : ∃ d, (scan c s).1 = .delim d
  · obtain ⟨d, mark⟩ := mark
    rw [mark] at settled single follows ⊢
    exact scan_delim_behind (follows rfl) settled single mark
  · have kind := scanned_scan c s
    generalize (scan c s).1 = t at kind settled single follows address mark ⊢
    generalize (scan c s).2 = taken at kind single follows
    cases kind with
    | space blank => trivial
    | string quote read => trivial
    | badString quote read => trivial
    | idHash starts => exact (follows rfl).endsName rfl single
    | hash starts first => exact (follows rfl).endsName rfl single
    | atKeyword starts => exact (follows rfl).endsName rfl single
    | loneHash starts digit hyphen => exact absurd ⟨_, rfl⟩ mark
    | loneAt starts => exact absurd ⟨_, rfl⟩ mark
    | number starts =>
        rw [← List.drop_cons (readNumeric_pos starts)] at single follows
        exact ends_readNumeric single follows
    | word number starts =>
        rw [← List.drop_cons (readWord_pos (startsName_of_startsWord starts))] at single follows
        exact ends_readWord single follows address
    | mark space double quote hash at_ number word =>
        exact ends_readPunctuation mark r

end Ends

end Swatch
