/-
Module: Swatch.Proofs.Kinds
Purpose: The kinds of token that a text can start with, each with what is known of the text.
Main exports:
  Scanned, scanned_scan, Token.Sound, sound_scan
-/
import Swatch.Proofs.Cutting
import Swatch.Proofs.Escaping

namespace Swatch

/-!
### Kinds of beginnings
-/

/-- The token that starts with a character and goes on in a text, and how many characters of
the text it takes, by the kind of its beginning. -/
inductive Scanned : Char → Text → Token → Nat → Prop where
  | space {c : Char} {s : Text} (blank : isSpace c = true) :
      Scanned c s .whitespace (s.takeWhile isSpace).length
  | string {c : Char} {s value : Text} {taken : Nat} (quote : c = '"' ∨ c = '\'')
      (read : readString c s = ((value, false), taken)) : Scanned c s (.string value) taken
  | badString {c : Char} {s value : Text} {taken : Nat} (quote : c = '"' ∨ c = '\'')
      (read : readString c s = ((value, true), taken)) : Scanned c s (.badString value) taken
  | idHash {s : Text} (starts : startsName s = true) :
      Scanned '#' s (.idHash (readName s).1) (readName s).2
  | hash {s : Text} (starts : startsName s = false)
      (first : startsWithDigit s = true ∨ s.head? = some '-') :
      Scanned '#' s (.hash (readName s).1) (readName s).2
  | loneHash {s : Text} (starts : startsName s = false) (digit : startsWithDigit s = false)
      (hyphen : s.head? ≠ some '-') : Scanned '#' s (.delim '#') 0
  | atKeyword {s : Text} (starts : startsName s = true) :
      Scanned '@' s (.atKeyword (readName s).1) (readName s).2
  | loneAt {s : Text} (starts : startsName s = false) : Scanned '@' s (.delim '@') 0
  | number {c : Char} {s : Text} (starts : startsNumber (c :: s) = true) :
      Scanned c s (readNumeric (c :: s)).1 ((readNumeric (c :: s)).2 - 1)
  | word {c : Char} {s : Text} (number : startsNumber (c :: s) = false)
      (starts : startsWord c s = true) :
      Scanned c s (readWord (c :: s)).1 ((readWord (c :: s)).2 - 1)
  | mark {c : Char} {s : Text} (space : isSpace c = false) (double : c ≠ '"')
      (single : c ≠ '\'') (hash : c ≠ '#') (at_ : c ≠ '@')
      (number : startsNumber (c :: s) = false) (word : startsWord c s = false) :
      Scanned c s (readPunctuation c s).1 (readPunctuation c s).2

/-- A scan gives the token of one of the kinds. -/
theorem scanned_scan (c : Char) (s : Text) : Scanned c s (scan c s).1 (scan c s).2 := by
  rw [scan]
  split
  next blank => exact .space blank
  next space =>
    split
    next quote =>
      cases read : readString c s with
      | mk found taken =>
          obtain ⟨value, broken⟩ := found
          cases broken with
          | false => exact .string quote read
          | true => exact .badString quote read
    next quote =>
      split
      next hash =>
        subst hash
        dsimp only
        split
        next starts => exact .idHash starts
        next starts =>
          rw [Bool.not_eq_true] at starts
          split
          next first =>
            rw [Bool.or_eq_true, beq_iff_eq] at first
            exact .hash starts first
          next first =>
            rw [Bool.or_eq_true, beq_iff_eq, not_or, Bool.not_eq_true] at first
            exact .loneHash starts first.1 first.2
      next hash =>
        split
        next at_ =>
          subst at_
          split
          next starts => exact .atKeyword starts
          next starts => exact .loneAt (Bool.not_eq_true _ ▸ starts)
        next at_ =>
          split
          next starts => exact .number starts
          next number =>
            rw [Bool.not_eq_true] at number space
            split
            next starts => exact .word number starts
            next word =>
              rw [Bool.not_eq_true] at word
              rw [not_or] at quote
              exact .mark space quote.1 quote.2 hash at_ number word

/-!
### What is known of a token that was read
-/

/-- A word is a name. -/
theorem startsName_of_startsWord {c : Char} {s : Text} (starts : startsWord c s = true) :
    startsName (c :: s) = true := by
  rw [startsWord] at starts
  split at starts
  next => exact (Bool.and_eq_true_iff.mp starts).2
  next =>
    rw [Bool.or_eq_true, Bool.and_eq_true, beq_iff_eq, Bool.not_eq_true'] at starts
    rcases starts with start | ⟨rfl, newline⟩
    · exact startsName_of_isNameStart s start
    · exact startsName_escape newline

/-- Where a name starts, one is read. -/
theorem readName_ne_nil {s : Text} (starts : startsName s = true) : (readName s).1 ≠ [] := by
  cases s with
  | nil => cases starts
  | cons c s =>
      rw [readName]
      by_cases escape : c = '\\'
      · subst escape
        rw [startsName, Bool.not_eq_true'] at starts
        rw [if_pos rfl, starts, if_neg Bool.false_ne_true]
        exact List.cons_ne_nil _ _
      · have inside : isNameChar c = true := by
          rcases isWordStart_iff.mp (isWordStart_of_startsName starts) with start | rfl | same
          · simp [isNameChar, start]
          · rfl
          · exact absurd same escape
        rw [if_neg escape, if_pos inside]
        exact List.cons_ne_nil _ _

theorem readName_pos {s : Text} (starts : startsName s = true) : 0 < (readName s).2 := by
  have nonempty := readName_ne_nil starts
  fun_cases readName s with
  | case1 => cases starts
  | case2 s newline =>
      rw [startsName, newline] at starts
      cases starts
  | case3 => omega
  | case4 => omega
  | case5 c s escape outside =>
      rw [readName, if_neg escape, if_neg (Bool.not_eq_true _ ▸ outside)] at nonempty
      exact absurd rfl nonempty

/-- Where a number starts, one is read. -/
theorem readWritten_text_ne_nil {s : Text} (starts : startsNumber s = true) :
    (readWritten s).text ≠ [] := by
  intro empty
  have parts : leadingDigits (afterSign s) = [] ∧
      Written.fractionText (leadingFraction ((afterSign s).drop
        (leadingDigits (afterSign s)).length)) = [] := by
    simp only [Written.text, List.append_eq_nil_iff] at empty
    exact ⟨empty.1.1.2, empty.1.2⟩
  obtain ⟨digits, fraction⟩ := parts
  rw [digits, List.length_nil, List.drop_zero] at fraction
  rw [startsNumber, Bool.or_eq_true] at starts
  rcases starts with digit | point
  · cases more : afterSign s with
    | nil =>
        rw [more] at digit
        cases digit
    | cons c rest =>
        rw [more] at digit digits
        have first : c.isDigit = true := digit
        rw [leadingDigits, List.takeWhile_cons_of_pos first] at digits
        cases digits
  · obtain ⟨text, found⟩ := Option.isSome_iff_exists.mp point
    rw [found] at fraction
    cases fraction

theorem readWord_pos {s : Text} (starts : startsName s = true) : 0 < (readWord s).2 :=
  Nat.lt_of_lt_of_le (readName_pos starts) (readName_le_readWord s)

theorem readNumeric_pos {s : Text} (starts : startsNumber s = true) : 0 < (readNumeric s).2 := by
  have text := List.length_pos_iff.mpr (readWritten_text_ne_nil starts)
  rw [readNumeric]
  dsimp only
  split
  next => exact Nat.succ_pos _
  next =>
    split
    next => exact Nat.add_pos_left text _
    next => exact text

/-- A name that was read: it is not empty, and holds no NUL. -/
def IsReadName (name : Text) : Prop := name ≠ [] ∧ '\x00' ∉ name

theorem isReadName_readName {s : Text} (starts : startsName s = true) :
    IsReadName (readName s).1 :=
  ⟨readName_ne_nil starts, zero_notMem_readName s⟩

/-- The name of a hash that is no identifier: it starts with a digit, or with a hyphen that
a digit follows, if anything does. -/
def IsHashName (name : Text) : Prop :=
  '\x00' ∉ name ∧
    ((∃ d more, name = d :: more ∧ d.isDigit = true) ∨
      ∃ more, name = '-' :: more ∧ ∀ d ∈ more.head?, d.isDigit = true)

theorem isHashName_readName {s : Text} (starts : startsName s = false)
    (first : startsWithDigit s = true ∨ s.head? = some '-') : IsHashName (readName s).1 := by
  refine ⟨zero_notMem_readName s, ?_⟩
  have digit {c : Char} (u : Text) (inside : c.isDigit = true) :
      (readName (c :: u)).1 = c :: (readName u).1 := by
    have escape : c ≠ '\\' := ne_of_class inside (by decide)
    have nonzero : c ≠ '\x00' := ne_of_class inside (by decide)
    have name : isNameChar c = true := by simp [isNameChar, inside]
    rw [readName, if_neg escape, if_pos name, kept, if_neg nonzero]
  cases s with
  | nil => rcases first with first | first <;> cases first
  | cons c s =>
      rcases first with first | first
      · exact .inl ⟨c, (readName s).1, digit s first, first⟩
      · obtain rfl := Option.some.inj first
        refine .inr ⟨(readName s).1, by rw [readName_hyphen], ?_⟩
        cases s with
        | nil =>
            rw [readName]
            simp
        | cons d s =>
            rw [startsName_hyphen] at starts
            have other : ¬(isNameStart d = true ∨ d = '-' ∨ d = '\\') := by
              rw [← isWordStart_iff, starts]
              exact Bool.false_ne_true
            rw [not_or, not_or] at other
            by_cases inside : d.isDigit = true
            · rw [digit s inside]
              intro e member
              rw [← Option.some.inj member]
              exact inside
            · have name : ¬isNameChar d = true := by simp [isNameChar, other, inside]
              rw [readName, if_neg other.2.2, if_neg name]
              simp

/-- What holds of the names and texts of a token that was read. -/
def Token.Sound : Token → Prop
  | .ident name => IsReadName name
  | .atKeyword name => IsReadName name
  | .idHash name => IsReadName name
  | .function name => IsReadName name
  | .dimension _ unit => IsReadName unit
  | .hash name => IsHashName name
  | .string value => '\x00' ∉ value
  | .url value => '\x00' ∉ value
  | _ => True

theorem sound_readNumeric (s : Text) : (readNumeric s).1.Sound := by
  rw [readNumeric]
  dsimp only
  split
  next => trivial
  next =>
    split
    next unit => exact isReadName_readName unit
    next => trivial

/-- The kinds of word: an address, a malformed one, a function, and an identifier that no
bracket follows. -/
theorem readWord_cases (s : Text) :
    (∃ value, (readWord s).1 = .url value ∧ '\x00' ∉ value) ∨
      (∃ contents, (readWord s).1 = .badUrl contents) ∨
      (readWord s = (.function (readName s).1, (readName s).2 + 1) ∧
        (lowercase (readName s).1 = "url".toList →
          readUrl (s.drop ((readName s).2 + 1)) = none)) ∨
      (readWord s = (.ident (readName s).1, (readName s).2) ∧
        (s.drop (readName s).2).head? ≠ some '(') := by
  by_cases bracket : (s.drop (readName s).2).head? = some '('
  · obtain ⟨more, left⟩ := List.head?_eq_some_iff.mp bracket
    have behind : s.drop ((readName s).2 + 1) = more := by
      rw [← List.drop_drop, left]
      rfl
    rw [readWord_bracket left, behind]
    by_cases named : lowercase (readName s).1 = "url".toList
    · rw [if_pos named]
      cases address : readUrl more with
      | none => exact .inr (.inr (.inl ⟨rfl, fun _ => rfl⟩))
      | some found =>
          rw [readUrl] at address
          split at address
          next => cases address
          next =>
            split at address
            next value _ body =>
              obtain rfl := Option.some.inj address
              exact .inl ⟨value, rfl, zero_notMem_readUrlBody _ value (by rw [body]; rfl)⟩
            next =>
              obtain rfl := Option.some.inj address
              exact .inr (.inl ⟨_, rfl⟩)
    · rw [if_neg named]
      exact .inr (.inr (.inl ⟨rfl, fun same => absurd same named⟩))
  · exact .inr (.inr (.inr ⟨readWord_plain bracket, bracket⟩))

theorem sound_readWord {s : Text} (starts : startsName s = true) : (readWord s).1.Sound := by
  rcases readWord_cases s with ⟨value, read, nonzero⟩ | ⟨contents, read⟩ | ⟨read, -⟩ | ⟨read, -⟩
  · rw [read]
    exact nonzero
  · rw [read]
    trivial
  · rw [read]
    exact isReadName_readName starts
  · rw [read]
    exact isReadName_readName starts

theorem sound_readPunctuation (c : Char) (s : Text) : (readPunctuation c s).1.Sound := by
  rw [readPunctuation.eq_def]
  split
  any_goals trivial
  next =>
    split
    next => trivial
    next => trivial

/-- Every token that is read is sound. -/
theorem sound_scan (c : Char) (s : Text) : (scan c s).1.Sound := by
  have kind := scanned_scan c s
  generalize (scan c s).1 = t at kind ⊢
  generalize (scan c s).2 = taken at kind
  cases kind with
  | space blank => trivial
  | string quote read =>
      have value := zero_notMem_readString c s
      rw [read] at value
      exact value
  | badString quote read => trivial
  | idHash starts => exact isReadName_readName starts
  | hash starts first => exact isHashName_readName starts first
  | loneHash starts digit hyphen => trivial
  | atKeyword starts => exact isReadName_readName starts
  | loneAt starts => trivial
  | number starts => exact sound_readNumeric _
  | word number starts => exact sound_readWord (startsName_of_startsWord starts)
  | mark => exact sound_readPunctuation c s

end Swatch
