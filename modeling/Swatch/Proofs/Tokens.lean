/-
Module: Swatch.Proofs.Tokens
Purpose: The tokens of a text, apart from where they stand, and the texts whose first token
  is known whatever follows.
Main exports:
  tokens, tokens_cons, tokens_space, Breaks, IsName, tokens_name, tokens_comment
-/
import Swatch.Proofs.Characters
import Swatch.Token.Scan

namespace Swatch

/-!
### Tokens without places
-/

/-- The tokens of a text. -/
def tokens (s : Text) : List Token := (lexemes s).map Lexeme.token

/-- Where a text starts does not change its tokens. -/
theorem map_token_lexemesFrom (here there : Position) (s : Text) :
    (lexemesFrom here s).map Lexeme.token = (lexemesFrom there s).map Lexeme.token := by
  fun_induction lexemesFrom here s generalizing there with
  | case1 => rw [lexemesFrom]
  | case2 here c s token taken scanned text ih =>
      rw [lexemesFrom, scanned]
      simp only [List.map_cons]
      rw [ih]

theorem tokens_nil : tokens [] = [] := by
  rw [tokens, lexemes, lexemesFrom]
  rfl

/-- The first token, and the tokens of what it leaves. -/
theorem tokens_cons (c : Char) (s : Text) :
    tokens (c :: s) = (scan c s).1 :: tokens (s.drop (scan c s).2) := by
  rw [tokens, lexemes, lexemesFrom, List.map_cons, tokens, lexemes]
  exact congrArg _ (map_token_lexemesFrom _ _ _)

/-- A token that takes `front` from the text leaves what is behind it. -/
theorem tokens_of_scan {c : Char} {front rest : Text} {t : Token}
    (scanned : scan c (front ++ rest) = (t, front.length)) :
    tokens (c :: (front ++ rest)) = t :: tokens rest := by
  rw [tokens_cons, scanned, List.drop_left]

theorem tokens_mark {c : Char} {s : Text} {t : Token} (scanned : scan c s = (t, 0)) :
    tokens (c :: s) = t :: tokens s := by
  rw [tokens_cons, scanned, List.drop_zero]

/-!
### White space
-/

theorem drop_length_takeWhile (p : Char → Bool) (s : Text) :
    s.drop (s.takeWhile p).length = s.dropWhile p := by
  induction s with
  | nil => rfl
  | cons c s ih =>
      by_cases inside : p c = true
      · rw [List.takeWhile_cons_of_pos inside, List.dropWhile_cons_of_pos inside]
        exact ih
      · rw [List.takeWhile_cons_of_neg inside, List.dropWhile_cons_of_neg inside]
        rfl

/-- A run of white space is one token. -/
theorem tokens_space {c : Char} (s : Text) (space : isSpace c = true) :
    tokens (c :: s) = .whitespace :: tokens (s.dropWhile isSpace) := by
  rw [tokens_cons, scan, if_pos space, drop_length_takeWhile]

/-!
### Names
-/

/-- A character that ends every name and number before it. -/
def isBreak (c : Char) : Bool :=
  c == ' ' || c == ';' || c == ':' || c == ',' || c == ')'

/-- The text is empty or starts with a character that ends what stands before it. -/
def Breaks (s : Text) : Prop := Stops (fun c => !isBreak c) s

instance (s : Text) : Decidable (Breaks s) := inferInstanceAs (Decidable (_ = _))

theorem breaks_cons {c : Char} {s : Text} : Breaks (c :: s) ↔ isBreak c = true := by
  simp [Breaks, stops_cons]

theorem isBreak_iff {c : Char} :
    isBreak c = true ↔ c = ' ' ∨ c = ';' ∨ c = ':' ∨ c = ',' ∨ c = ')' := by
  simp [isBreak, or_assoc]

/-- A name that is written as it is: it starts like a name and holds no character that
needs an escape. -/
def IsName (name : Text) : Prop :=
  startsName name = true ∧ ∀ c ∈ name, isNameChar c = true ∧ c ≠ '\x00'

instance (name : Text) : Decidable (IsName name) :=
  @instDecidableAnd _ _ inferInstance (List.decidableBAll _ name)

/-- A character that a name goes on with. -/
def continuesName (c : Char) : Bool := isNameChar c || c == '\\'

/-- Name characters are read up to one that does not go on with the name. -/
theorem readName_run {name rest : Text}
    (all : ∀ c ∈ name, isNameChar c = true ∧ c ≠ '\x00') (stops : Stops continuesName rest) :
    readName (name ++ rest) = (name, name.length) := by
  induction name with
  | nil =>
      cases rest with
      | nil => rw [List.nil_append, readName]; rfl
      | cons c rest =>
          have stop := stops_cons.mp stops
          rw [continuesName, Bool.or_eq_false_iff, beq_eq_false_iff_ne] at stop
          rw [List.nil_append, readName, if_neg stop.2, if_neg (by simp [stop.1])]
          rfl
  | cons c name ih =>
      obtain ⟨inside, nonzero⟩ := all c (by simp)
      have plain : c ≠ '\\' := by
        rintro rfl
        revert inside
        decide
      rw [List.cons_append, readName, if_neg plain, if_pos inside,
        ih fun d member => all d (List.mem_cons_of_mem c member)]
      simp only [kept, if_neg nonzero, List.length_cons, Nat.add_comm]

theorem Breaks.stopsName {rest : Text} (breaks : Breaks rest) :
    Stops continuesName rest := by
  cases rest with
  | nil => rfl
  | cons c rest =>
      rw [stops_cons]
      rcases isBreak_iff.mp (breaks_cons.mp breaks) with rfl | rfl | rfl | rfl | rfl <;> rfl

/-- A name starts with a name start, or with a hyphen and one more such character. -/
theorem IsName.cases {c : Char} {s : Text} (name : IsName (c :: s)) :
    isNameStart c = true ∨
      c = '-' ∧ ∃ d rest, s = d :: rest ∧ (isNameStart d = true ∨ d = '-') := by
  obtain ⟨start, all⟩ := name
  by_cases hyphen : c = '-'
  · subst hyphen
    cases s with
    | nil => exact absurd start (by decide)
    | cons d rest =>
        refine Or.inr ⟨rfl, d, rest, rfl, ?_⟩
        have inside := (all d (by simp)).1
        have plain : d ≠ '\\' := by
          rintro rfl
          revert inside
          decide
        simpa [startsName, plain] using start
  · have plain : c ≠ '\\' := by
      rintro rfl
      have inside := (all '\\' (by simp)).1
      revert inside
      decide
    refine Or.inl ?_
    simpa [startsName, hyphen, plain] using start

theorem not_isName_nil : ¬IsName [] := by
  decide

/-- A character of a class differs from one outside it. -/
theorem ne_of_class {p : Char → Bool} {c d : Char} (inside : p c = true)
    (outside : p d = false) : c ≠ d := by
  rintro rfl
  rw [inside] at outside
  cases outside

theorem isNameStart_iff {c : Char} :
    isNameStart c = true ↔
      (65 ≤ c.toNat ∧ c.toNat ≤ 90) ∨ (97 ≤ c.toNat ∧ c.toNat ≤ 122) ∨ c.toNat = 95 ∨
        c.toNat = 0 ∨ 128 ≤ c.toNat := by
  simp [isNameStart, isAlpha_iff, ← Char.toNat_inj, or_assoc]

theorem startsName_of_isNameStart {c : Char} (s : Text) (start : isNameStart c = true) :
    startsName (c :: s) = true := by
  have hyphen : c ≠ '-' := ne_of_class start (by decide)
  have escape : c ≠ '\\' := ne_of_class start (by decide)
  rw [startsName.eq_3 c s (fun _ _ same _ => hyphen same) escape]
  exact start

/-- What follows a name does not keep it from being one. -/
theorem IsName.startsName_append {name : Text} (isName : IsName name) (rest : Text) :
    startsName (name ++ rest) = true := by
  cases name with
  | nil => exact absurd isName not_isName_nil
  | cons c s =>
      rcases isName.cases with start | ⟨rfl, d, tail, rfl, second⟩
      · exact startsName_of_isNameStart (s ++ rest) start
      · rcases second with second | rfl
        · simp [startsName, second]
        · simp [startsName]

/-- A name start is no white space. -/
theorem isSpace_of_isNameStart {c : Char} (start : isNameStart c = true) :
    isSpace c = false := by
  rw [isNameStart_iff] at start
  rw [Bool.eq_false_iff, ne_eq, isSpace_iff]
  omega

theorem isDigit_of_isNameStart {c : Char} (start : isNameStart c = true) :
    c.isDigit = false := by
  rw [isNameStart_iff] at start
  rw [Bool.eq_false_iff, ne_eq, isDigit_iff]
  omega

theorem leadingSign_of_ne {c : Char} (s : Text) (plus : c ≠ '+') (minus : c ≠ '-') :
    leadingSign (c :: s) = none := by
  simp [leadingSign, Option.filter, plus, minus]

theorem afterSign_of_ne {c : Char} (s : Text) (plus : c ≠ '+') (minus : c ≠ '-') :
    afterSign (c :: s) = c :: s := by
  rw [afterSign, leadingSign_of_ne s plus minus]
  rfl

/-- Neither a digit nor a point starts a number. -/
theorem not_startsNumber {c : Char} (s : Text) (plus : c ≠ '+') (minus : c ≠ '-')
    (digit : c.isDigit = false) (point : c ≠ '.') : startsNumber (c :: s) = false := by
  have fraction : leadingFraction (c :: s) = none :=
    leadingFraction.eq_2 (c :: s) fun _ same => point (List.cons.inj same).1
  rw [startsNumber, afterSign_of_ne s plus minus, fraction]
  simp [startsWithDigit, digit]

theorem startsNumber_of_isNameStart {c : Char} (s : Text) (start : isNameStart c = true) :
    startsNumber (c :: s) = false :=
  not_startsNumber s (ne_of_class start (by decide)) (ne_of_class start (by decide))
    (isDigit_of_isNameStart start) (ne_of_class start (by decide))

/-- No number starts with a name. -/
theorem IsName.not_startsNumber {name : Text} (isName : IsName name) (rest : Text) :
    startsNumber (name ++ rest) = false := by
  cases name with
  | nil => exact absurd isName not_isName_nil
  | cons c s =>
      rcases isName.cases with start | ⟨rfl, d, tail, rfl, second⟩
      · exact startsNumber_of_isNameStart (s ++ rest) start
      · have digit : d.isDigit = false := by
          rcases second with second | rfl
          · exact isDigit_of_isNameStart second
          · decide
        have point : d ≠ '.' := by
          rcases second with second | rfl
          · exact ne_of_class second (by decide)
          · decide
        have signed : afterSign ('-' :: d :: (tail ++ rest)) = d :: (tail ++ rest) := rfl
        have fraction : leadingFraction (d :: (tail ++ rest)) = none :=
          leadingFraction.eq_2 _ fun _ same => point (List.cons.inj same).1
        rw [List.cons_append, List.cons_append, startsNumber, signed, fraction]
        simp [startsWithDigit, digit]

/-- A name is read as a word, if no bracket follows. -/
theorem readWord_name {name rest : Text} (isName : IsName name) (breaks : Breaks rest) :
    readWord (name ++ rest) = (.ident name, name.length) := by
  have read := readName_run isName.2 breaks.stopsName
  have bracket : ∀ tail, rest = '(' :: tail → False := by
    rintro tail rfl
    exact absurd (breaks_cons.mp breaks) (by decide)
  rw [readWord, read]
  simp only [List.drop_left]

/-- A name with a bracket is a function, unless it could be an address. -/
theorem readWord_function {name rest : Text} (isName : IsName name)
    (other : lowercase name ≠ "url".toList) :
    readWord (name ++ '(' :: rest) = (.function name, name.length + 1) := by
  have stops : Stops continuesName ('(' :: rest) := stops_cons.mpr (by decide)
  have read := readName_run isName.2 stops
  rw [readWord, read]
  simp only [List.drop_left, if_neg other]

/-- A name is no mark that starts with a hyphen. -/
theorem IsName.startsWord {c : Char} {s : Text} (isName : IsName (c :: s)) {rest : Text}
    (mark : rest.head? ≠ some '>') : startsWord c (s ++ rest) = true := by
  rcases isName.cases with start | ⟨rfl, d, tail, rfl, -⟩
  · have hyphen : c ≠ '-' := ne_of_class start (by decide)
    simp [Swatch.startsWord, hyphen, start]
  · have arrow : strip? "->".toList (d :: tail ++ rest) = none := by
      rw [Option.eq_none_iff_forall_ne_some]
      intro more found
      have spelled := strip?_eq_some.mp found
      cases tail with
      | nil =>
          apply mark
          cases rest with
          | nil => simp at spelled
          | cons e rest =>
              simp at spelled
              simp [spelled.2]
      | cons e tail =>
          have second : e = '>' := by
            simp at spelled
            exact spelled.2.1
          have inside := (isName.2 e (by simp)).1
          rw [second] at inside
          revert inside
          decide
    have starts := isName.startsName_append rest
    rw [Swatch.startsWord, if_pos rfl, arrow]
    simpa using starts

/-- What starts a word is a word token, and none of the tokens that are tried before. -/
theorem IsName.scan_eq {c : Char} {s : Text} (isName : IsName (c :: s)) {rest : Text}
    (mark : rest.head? ≠ some '>') :
    scan c (s ++ rest) = ((readWord (c :: s ++ rest)).1, (readWord (c :: s ++ rest)).2 - 1) := by
  have number : startsNumber (c :: (s ++ rest)) = false := isName.not_startsNumber rest
  have starts := isName.startsWord mark
  have space : isSpace c = false := by
    rcases isName.cases with start | ⟨rfl, -⟩
    · exact isSpace_of_isNameStart start
    · decide
  have other (d : Char) (mark : isNameStart d = false) (hyphen : '-' ≠ d) : c ≠ d := by
    rcases isName.cases with start | ⟨rfl, -⟩
    · exact ne_of_class start mark
    · exact hyphen
  simp [scan, space, other '"' (by decide) (by decide), other '\'' (by decide) (by decide),
    other '#' (by decide) (by decide), other '@' (by decide) (by decide), number, starts]

theorem Breaks.head?_ne {rest : Text} (breaks : Breaks rest) {c : Char}
    (other : isBreak c = false) : rest.head? ≠ some c := by
  cases rest with
  | nil => exact nofun
  | cons d rest =>
      intro same
      rw [List.head?_cons, Option.some_inj] at same
      rw [breaks_cons, same, other] at breaks
      cases breaks

/-- A name before a break is an identifier. -/
theorem tokens_name {name rest : Text} (isName : IsName name) (breaks : Breaks rest) :
    tokens (name ++ rest) = .ident name :: tokens rest := by
  cases name with
  | nil => exact absurd isName not_isName_nil
  | cons c s =>
      refine tokens_of_scan ?_
      rw [isName.scan_eq (breaks.head?_ne (by decide)), readWord_name isName breaks]
      rfl

/-- A name with a bracket is a function. -/
theorem tokens_function {name rest : Text} (isName : IsName name)
    (other : lowercase name ≠ "url".toList) :
    tokens (name ++ '(' :: rest) = .function name :: tokens rest := by
  cases name with
  | nil => exact absurd isName not_isName_nil
  | cons c s =>
      have scanned : scan c (s ++ ['('] ++ rest) = (.function (c :: s), (s ++ ['(']).length) := by
        have mark : (['('] ++ rest).head? ≠ some '>' := by simp
        rw [List.append_assoc, isName.scan_eq mark, List.singleton_append,
          readWord_function isName other]
        simp
      have read := tokens_of_scan scanned
      rw [List.append_assoc, List.singleton_append] at read
      exact read

/-- A name behind an at sign is an at-keyword. -/
theorem tokens_atKeyword {name rest : Text} (isName : IsName name) (breaks : Breaks rest) :
    tokens ('@' :: (name ++ rest)) = .atKeyword name :: tokens rest := by
  refine tokens_of_scan ?_
  have read := readName_run isName.2 breaks.stopsName
  have starts := isName.startsName_append rest
  simp [scan, isSpace, isNewline, starts, read]

/-- A hash with a name is the hash of an identifier. -/
theorem tokens_idHash {name rest : Text} (isName : IsName name) (breaks : Breaks rest) :
    tokens ('#' :: (name ++ rest)) = .idHash name :: tokens rest := by
  refine tokens_of_scan ?_
  have read := readName_run isName.2 breaks.stopsName
  have starts := isName.startsName_append rest
  simp [scan, isSpace, isNewline, starts, read]

/-- A hash with name characters that start with a digit is a hash of its own kind. -/
theorem tokens_hash {d : Char} {name rest : Text} (digit : d.isDigit = true)
    (all : ∀ c ∈ d :: name, isNameChar c = true ∧ c ≠ '\x00') (breaks : Breaks rest) :
    tokens ('#' :: (d :: name ++ rest)) = .hash (d :: name) :: tokens rest := by
  refine tokens_of_scan ?_
  have read := readName_run all breaks.stopsName
  have start : isNameStart d = false := by
    rw [Bool.eq_false_iff]
    intro start
    rw [isDigit_of_isNameStart start] at digit
    cases digit
  have hyphen : d ≠ '-' := ne_of_class digit (by decide)
  have escape : d ≠ '\\' := ne_of_class digit (by decide)
  have starts : startsName (d :: (name ++ rest)) = false := by
    rw [startsName.eq_3 d _ (fun _ _ same _ => hyphen same) escape]
    exact start
  rw [List.cons_append] at read ⊢
  simp [scan, isSpace, isNewline, starts, read, startsWithDigit, digit]

/-!
### Digits
-/

/-- A number that is a run of digits. -/
def digitsNumeral (digits : Text) : Numeral := Written.number ⟨none, digits, none, none⟩

/-- A character that a number goes on with: another digit, a point, a percent sign, or the start
of an exponent or a unit. -/
def continuesNumber (c : Char) : Bool := continuesName c || c == '.' || c == '%'

theorem Breaks.stopsNumber {rest : Text} (breaks : Breaks rest) :
    Stops continuesNumber rest := by
  cases rest with
  | nil => rfl
  | cons c rest =>
      rw [stops_cons]
      rcases isBreak_iff.mp (breaks_cons.mp breaks) with rfl | rfl | rfl | rfl | rfl <;> rfl

/-- Nothing that belongs to a number starts with another character. -/
theorem endsNumber {rest : Text} (stops : Stops continuesNumber rest) :
    Stops Char.isDigit rest ∧ leadingFraction rest = none ∧ leadingExponent rest = none ∧
      rest.head? ≠ some '%' ∧ startsName rest = false := by
  cases rest with
  | nil => exact ⟨rfl, rfl, rfl, nofun, rfl⟩
  | cons c rest =>
      have stop := stops_cons.mp stops
      simp only [continuesNumber, continuesName, isNameChar, Bool.or_eq_false_iff,
        beq_eq_false_iff_ne] at stop
      obtain ⟨⟨⟨⟨⟨start, digit⟩, hyphen⟩, escape⟩, point⟩, percent⟩ := stop
      have small : c ≠ 'e' := by
        rintro rfl
        cases start
      have large : c ≠ 'E' := by
        rintro rfl
        cases start
      refine ⟨stops_cons.mpr digit, ?_, ?_, by simpa using percent, ?_⟩
      · exact leadingFraction.eq_2 _ fun _ same => point (List.cons.inj same).1
      · simp [leadingExponent, small, large]
      · rw [startsName.eq_3 c rest (fun _ _ same _ => hyphen same) escape]
        exact start

theorem readWritten_digits {digits rest : Text} (nonempty : digits ≠ [])
    (all : ∀ c ∈ digits, c.isDigit = true) (stops : Stops continuesNumber rest) :
    readWritten (digits ++ rest) = ⟨none, digits, none, none⟩ := by
  obtain ⟨behind, fraction, exponent, -, -⟩ := endsNumber stops
  obtain ⟨d, digits, rfl⟩ := List.exists_cons_of_ne_nil nonempty
  have digit : d.isDigit = true := all d (by simp)
  have plus : d ≠ '+' := ne_of_class digit (by decide)
  have minus : d ≠ '-' := ne_of_class digit (by decide)
  have unsigned : leadingSign (d :: digits ++ rest) = none := leadingSign_of_ne _ plus minus
  have after : afterSign (d :: digits ++ rest) = d :: digits ++ rest :=
    afterSign_of_ne _ plus minus
  have whole : leadingDigits (d :: digits ++ rest) = d :: digits :=
    takeWhile_run all behind
  simp only [readWritten, after, unsigned, whole, List.drop_left, fraction,
    Written.fractionText, List.length_nil, List.drop_zero, exponent]

/-- Digits are a number up to a character that it does not go on with. -/
theorem tokens_digits {digits rest : Text} (nonempty : digits ≠ [])
    (all : ∀ c ∈ digits, c.isDigit = true) (stops : Stops continuesNumber rest) :
    tokens (digits ++ rest) = .number (digitsNumeral digits) :: tokens rest := by
  have written := readWritten_digits nonempty all stops
  obtain ⟨-, -, -, percent, unit⟩ := endsNumber stops
  have length : (Written.text ⟨none, digits, none, none⟩).length = digits.length := by
    simp [Written.text, Written.fractionText, Written.exponentText]
  have numeric : readNumeric (digits ++ rest) =
      (.number (digitsNumeral digits), digits.length) := by
    simp only [readNumeric, written, length, List.drop_left, if_neg percent, unit]
    rfl
  obtain ⟨d, digits, rfl⟩ := List.exists_cons_of_ne_nil nonempty
  have digit : d.isDigit = true := all d (by simp)
  have code := isDigit_iff.mp digit
  have space : isSpace d = false := by
    rw [Bool.eq_false_iff, ne_eq, isSpace_iff]
    omega
  have after : afterSign (d :: (digits ++ rest)) = d :: (digits ++ rest) :=
    afterSign_of_ne _ (ne_of_class digit (by decide)) (ne_of_class digit (by decide))
  have number : startsNumber (d :: (digits ++ rest)) = true := by
    rw [startsNumber, after]
    simp [startsWithDigit, digit]
  have other (e : Char) (mark : e.isDigit = false) : d ≠ e := ne_of_class digit mark
  refine tokens_of_scan ?_
  rw [List.cons_append] at numeric
  simp [scan, space, other '"' (by decide), other '\'' (by decide), other '#' (by decide),
    other '@' (by decide), number, numeric]

/-!
### Punctuation and comments
-/

section Punctuation

variable (s : Text)

theorem tokens_semicolon : tokens (';' :: s) = .semicolon :: tokens s :=
  tokens_mark rfl

theorem tokens_colon : tokens (':' :: s) = .colon :: tokens s :=
  tokens_mark rfl

theorem tokens_comma : tokens (',' :: s) = .comma :: tokens s :=
  tokens_mark rfl

theorem tokens_openCurly : tokens ('\x7b' :: s) = .opening .curly :: tokens s :=
  tokens_mark rfl

theorem tokens_closeCurly : tokens ('\x7d' :: s) = .closing .curly :: tokens s :=
  tokens_mark rfl

theorem tokens_closeRound : tokens (')' :: s) = .closing .round :: tokens s :=
  tokens_mark rfl

end Punctuation

/-- A point before a name is a mark of its own. -/
theorem tokens_point {name : Text} (isName : IsName name) (rest : Text) :
    tokens ('.' :: (name ++ rest)) = .delim '.' :: tokens (name ++ rest) := by
  obtain ⟨c, s, rfl⟩ : ∃ c s, name = c :: s := by
    cases name with
    | nil => exact absurd isName not_isName_nil
    | cons c s => exact ⟨c, s, rfl⟩
  have digit : c.isDigit = false := by
    rcases isName.cases with start | ⟨rfl, -⟩
    · exact isDigit_of_isNameStart start
    · rfl
  have equals : c ≠ '=' := by
    rcases isName.cases with start | ⟨rfl, -⟩
    · exact ne_of_class start (by decide)
    · decide
  have number : startsNumber ('.' :: (c :: s ++ rest)) = false := by
    have after : afterSign ('.' :: (c :: s ++ rest)) = '.' :: (c :: s ++ rest) := rfl
    rw [startsNumber, after]
    simp [startsWithDigit, leadingFraction, digit]
  refine tokens_mark ?_
  have mark : readPunctuation '.' (c :: s ++ rest) = (.delim '.', 0) := by
    simp [readPunctuation, equals]
  have word : startsWord '.' (c :: s ++ rest) = false := rfl
  rw [← mark]
  simp only [scan, number, word]
  rfl

/-- Whether a text holds the mark that closes a comment. -/
def closesComment : Text → Bool
  | '*' :: '/' :: _ => true
  | _ :: s => closesComment s
  | [] => false

theorem closesComment_cons {c : Char} {s : Text} :
    closesComment (c :: s) = false ↔
      (∀ more, c = '*' → s = '/' :: more → False) ∧ closesComment s = false := by
  constructor
  · intro inside
    have first : ∀ more, c = '*' → s = '/' :: more → False := by
      rintro more rfl rfl
      cases inside
    rw [closesComment.eq_2 c s first] at inside
    exact ⟨first, inside⟩
  · rintro ⟨first, later⟩
    rw [closesComment.eq_2 c s first]
    exact later

theorem closesComment_iff {s : Text} : closesComment s = false ↔ ¬"*/".toList <:+: s := by
  induction s with
  | nil => simp [closesComment]
  | cons c s ih =>
      rw [closesComment_cons, ih, List.infix_cons_iff, not_or]
      refine and_congr_left fun _ => ?_
      constructor
      · rintro first ⟨more, same⟩
        have spelled : '*' = c ∧ '/' :: more = s := by simpa using same
        exact first more spelled.1.symm spelled.2.symm
      · rintro other more rfl rfl
        exact other ⟨more, rfl⟩

/-- A comment ends at the first closing mark. -/
theorem readComment_run {text : Text} (rest : Text) (inside : closesComment text = false) :
    readComment (text ++ '*' :: '/' :: rest) = (text, text.length + 2) := by
  induction text with
  | nil => rfl
  | cons c text ih =>
      obtain ⟨first, later⟩ := closesComment_cons.mp inside
      have earlier : ∀ more, c = '*' → text ++ '*' :: '/' :: rest = '/' :: more → False := by
        rintro more star same
        cases text with
        | nil => simp at same
        | cons d text => exact first text star (by rw [(List.cons.inj same).1])
      rw [List.cons_append, readComment.eq_3 _ _ earlier, ih later]
      simp only [List.length_cons, Prod.mk.injEq, true_and]
      omega

/-- A comment starts with the text that it is read from. -/
theorem head_readComment {s : Text} {c : Char} {more : Text}
    (read : (readComment s).1 = c :: more) : ∃ rest, s = c :: rest := by
  fun_cases readComment s with
  | case1 => simp [readComment] at read
  | case2 => simp [readComment] at read
  | case3 d rest open_ text taken inside =>
      rw [readComment.eq_3 d rest open_] at read
      cases read
      exact ⟨rest, rfl⟩

/-- What is read of a comment does not close it, also if the text ends before the comment does. -/
theorem closesComment_readComment (s : Text) : closesComment (readComment s).1 = false := by
  fun_induction readComment s with
  | case1 => rfl
  | case2 => rfl
  | case3 c s open_ text taken read ih =>
      rw [read] at ih
      refine closesComment_cons.mpr ⟨fun more star slash => ?_, ih⟩
      have first : (readComment s).1 = '/' :: more := by rw [read]; exact slash
      obtain ⟨rest, same⟩ := head_readComment first
      exact open_ rest star same

/-- A space behind a text does not close a comment that the text leaves open. -/
theorem closesComment_concat_space {text : Text} (inside : closesComment text = false) :
    closesComment (text ++ [' ']) = false := by
  induction text with
  | nil => rfl
  | cons c text ih =>
      obtain ⟨first, later⟩ := closesComment_cons.mp inside
      refine closesComment_cons.mpr ⟨fun more star same => ?_, ih later⟩
      cases text with
      | nil => simp at same
      | cons d text => exact first text star (by rw [(List.cons.inj same).1])

/-- A comment is one token. -/
theorem tokens_comment {text : Text} (rest : Text) (inside : closesComment text = false) :
    tokens ('/' :: '*' :: (text ++ '*' :: '/' :: rest)) = .comment text :: tokens rest := by
  have read := readComment_run rest inside
  have scanned : scan '/' ('*' :: (text ++ ['*', '/']) ++ rest) =
      (.comment text, ('*' :: (text ++ ['*', '/'])).length) := by
    have punctuation : scan '/' ('*' :: (text ++ ['*', '/']) ++ rest) =
        readPunctuation '/' ('*' :: (text ++ ['*', '/'] ++ rest)) := rfl
    rw [punctuation, List.append_assoc]
    simp only [List.cons_append, List.nil_append, readPunctuation, read]
    simp only [List.length_cons, List.length_append, List.length_nil, Prod.mk.injEq, true_and]
    omega
  have spelled := tokens_of_scan scanned
  simp only [List.cons_append, List.append_assoc, List.nil_append] at spelled
  exact spelled

end Swatch
