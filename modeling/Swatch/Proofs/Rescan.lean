/-
Module: Swatch.Proofs.Rescan
Purpose: Every token is read back from its spelling, up to a text that does not go on with it.
Main exports:
  Token.Twin, Token.settled, Token.Ends, tokens_text
-/
import Swatch.Proofs.Kinds
import Swatch.Proofs.Notation

namespace Swatch

/-!
### Tokens that count as equal
-/

/-- Whether a token has no spelling that is read at all. -/
def Token.isBroken : Token → Bool
  | .badString _ => true
  | .badUrl _ => true
  | _ => false

/-- Two tokens that are printed the same, with the same part in the nesting of blocks. -/
structure Token.Twin (u t : Token) : Prop where
  text : u.text = t.text
  opens : u.opens? = t.opens?
  closes : ∀ bracket, u = .closing bracket ↔ t = .closing bracket
  comma : u = .comma ↔ t = .comma
  blank : u.isBlank = t.isBlank
  broken : u.isBroken = t.isBroken

theorem Token.Twin.refl (t : Token) : t.Twin t :=
  ⟨rfl, rfl, fun _ => Iff.rfl, Iff.rfl, rfl, rfl⟩

/-- Whether a token by itself is printed as what it is read as.  A number is rounded when it is
printed, and what is printed has to be rounded to itself.  A unit must not go on with its number.
A backslash that is a mark of its own hides what is printed behind it. -/
def Token.settled : Token → Bool
  | .number n => (readWritten n.text).number.text == n.text
  | .percentage n => (readWritten n.percentText).percentage.percentText == n.percentText
  | .dimension n unit =>
    (readWritten n.text).number.text == n.text &&
      (readWritten (n.text ++ unitText unit)).text == n.text
  | .delim c => c != '\\'
  | _ => true

/-- Nothing at the start of the text goes on with the spelling of a token. -/
def Token.Ends (rest : Text) : Token → Prop
  | .ident name =>
    Stops continuesName rest ∧ rest.head? ≠ some '(' ∧
      (name = "--".toList → rest.head? ≠ some '>')
  | .atKeyword _ => Stops continuesName rest
  | .hash _ => Stops continuesName rest
  | .idHash _ => Stops continuesName rest
  | .dimension _ _ => Stops continuesName rest
  | .number _ =>
    Stops Char.isDigit rest ∧ leadingFraction rest = none ∧ rest.head? ≠ some '%' ∧
      startsName rest = false
  | .function name => lowercase name = "url".toList → readUrl rest = none
  | .delim c => scan c rest = (.delim c, 0)
  | _ => True

/-!
### Words
-/

/-- Where a name starts, no number does. -/
theorem not_startsNumber_of_startsName {s : Text} (starts : startsName s = true) :
    startsNumber s = false := by
  cases s with
  | nil => cases starts
  | cons c s =>
      rcases isWordStart_iff.mp (isWordStart_of_startsName starts) with start | rfl | rfl
      · exact startsNumber_of_isNameStart s start
      · cases s with
        | nil => cases starts
        | cons d s =>
            rw [startsName_hyphen] at starts
            have digit : d.isDigit = false := by
              rcases isWordStart_iff.mp starts with start | rfl | rfl
              · exact isDigit_of_isNameStart start
              · rfl
              · rfl
            have point : d ≠ '.' := ne_of_class starts (by decide)
            have signed : afterSign ('-' :: d :: s) = d :: s := rfl
            have fraction : leadingFraction (d :: s) = none :=
              leadingFraction.eq_2 _ fun _ same => point (List.cons.inj same).1
            rw [startsNumber, signed, fraction]
            simp [startsWithDigit, digit]
      · exact not_startsNumber s (by decide) (by decide) rfl (by decide)

theorem startsWord_of_startsName {c : Char} {s : Text} (starts : startsName (c :: s) = true)
    (mark : c = '-' → ¬"->".toList <+: s) : startsWord c s = true := by
  rw [startsWord]
  split
  next hyphen =>
    have none : strip? "->".toList s = none := by
      rw [Option.eq_none_iff_forall_ne_some]
      intro more found
      exact mark hyphen ⟨more, (strip?_eq_some.mp found).symm⟩
    rw [none, starts]
    rfl
  next hyphen =>
    rcases isWordStart_iff.mp (isWordStart_of_startsName starts) with start | same | rfl
    · rw [start, Bool.true_or]
    · exact absurd same hyphen
    · exact Bool.or_eq_true_iff.mpr (.inr starts)

/-- A character that a word starts with is none of those that are tried before. -/
theorem scan_word {c : Char} {s : Text} (starts : startsName (c :: s) = true)
    (mark : c = '-' → ¬"->".toList <+: s) :
    scan c s = ((readWord (c :: s)).1, (readWord (c :: s)).2 - 1) := by
  have inside := isWordStart_of_startsName starts
  have space : isSpace c = false := by
    rcases isWordStart_iff.mp inside with start | rfl | rfl
    · exact isSpace_of_isNameStart start
    · rfl
    · rfl
  have other (d : Char) (outside : isWordStart d = false) : c ≠ d := ne_of_class inside outside
  simp [scan, space, other '"' (by decide), other '\'' (by decide), other '#' (by decide),
    other '@' (by decide), not_startsNumber_of_startsName starts,
    startsWord_of_startsName starts mark]

/-- A word that is read as a whole is one token. -/
theorem tokens_word {front rest : Text} {t : Token} (starts : startsName (front ++ rest) = true)
    (mark : ¬"-->".toList <+: front ++ rest) (nonempty : front ≠ [])
    (read : readWord (front ++ rest) = (t, front.length)) :
    tokens (front ++ rest) = t :: tokens rest := by
  cases front with
  | nil => exact absurd rfl nonempty
  | cons c front =>
      apply tokens_of_scan
      have other : c = '-' → ¬"->".toList <+: front ++ rest := by
        rintro rfl ⟨more, same⟩
        exact mark ⟨more, congrArg ('-' :: ·) same⟩
      have scanned : scan c (front ++ rest) =
          ((readWord (c :: front ++ rest)).1, (readWord (c :: front ++ rest)).2 - 1) :=
        scan_word starts other
      rw [read] at scanned
      exact scanned

/-- A character that a number starts with is none of those that are tried before. -/
theorem scan_number {c : Char} {s : Text} (starts : startsNumber (c :: s) = true) :
    scan c s = ((readNumeric (c :: s)).1, (readNumeric (c :: s)).2 - 1) := by
  have first : c.isDigit = true ∨ c = '+' ∨ c = '-' ∨ c = '.' := by
    apply Classical.byContradiction
    intro other
    simp only [not_or, Bool.not_eq_true] at other
    rw [not_startsNumber _ other.2.1 other.2.2.1 other.1 other.2.2.2] at starts
    cases starts
  have other (d : Char) (digit : d.isDigit = false) (plus : '+' ≠ d) (minus : '-' ≠ d)
      (point : '.' ≠ d) : c ≠ d := by
    rcases first with inside | rfl | rfl | rfl
    · exact ne_of_class inside digit
    · exact plus
    · exact minus
    · exact point
  have space : isSpace c = false := by
    rcases first with digit | rfl | rfl | rfl
    · rw [isDigit_iff] at digit
      rw [Bool.eq_false_iff, ne_eq, isSpace_iff]
      omega
    · rfl
    · rfl
    · rfl
  simp [scan, space, starts, other '"', other '\'', other '#', other '@']

/-- A number that is read as a whole is one token. -/
theorem tokens_numeric {front rest : Text} {t : Token}
    (starts : startsNumber (front ++ rest) = true) (nonempty : front ≠ [])
    (read : readNumeric (front ++ rest) = (t, front.length)) :
    tokens (front ++ rest) = t :: tokens rest := by
  cases front with
  | nil => exact absurd rfl nonempty
  | cons c front =>
      apply tokens_of_scan
      have scanned : scan c (front ++ rest) =
          ((readNumeric (c :: front ++ rest)).1, (readNumeric (c :: front ++ rest)).2 - 1) :=
        scan_number starts
      rw [read] at scanned
      exact scanned

/-!
### Names in their spelling
-/

section Names

variable {name rest : Text}

theorem IsReadName.starts (sound : IsReadName name) (rest : Text) :
    startsName (identText name ++ rest) = true :=
  startsName_identText sound.1 sound.2 rest

theorem IsReadName.identText_ne_nil (sound : IsReadName name) : identText name ≠ [] := by
  intro none
  have starts := sound.starts []
  rw [none] at starts
  cases starts

/-- Name characters are read as they are. -/
theorem readName_all {name rest : Text}
    (all : (name.all fun c => isNameChar c && c != '\x00') = true)
    (stops : Stops continuesName rest) : readName (name ++ rest) = (name, name.length) :=
  readName_run (fun c member => by simpa using List.all_eq_true.mp all c member) stops

/-- A name is read back from its spelling. -/
theorem IsReadName.read_back (sound : IsReadName name) (stops : Stops continuesName rest) :
    readName (identText name ++ rest) = (name, (identText name).length) := by
  rw [readName_identText sound.2, readName_stop stops, List.append_nil]
  rfl

/-- The spelling of a name is no part of a mark: the mark would be read as two hyphens. -/
theorem IsReadName.not_mark (sound : IsReadName name) (stops : Stops continuesName rest)
    (mark : name = "--".toList → rest.head? ≠ some '>') :
    ¬"-->".toList <+: identText name ++ rest := by
  rintro ⟨after, same⟩
  have hyphens : readName ("--".toList ++ '>' :: after) = ("--".toList, 2) :=
    readName_all rfl (stops_cons.mpr (by decide))
  have spelled : identText name ++ rest = "--".toList ++ '>' :: after := same.symm
  have read := sound.read_back stops
  rw [spelled, hyphens, Prod.mk.injEq] at read
  obtain ⟨rfl, -⟩ := read
  have tail : rest = '>' :: after := List.append_cancel_left spelled
  exact mark rfl (by rw [tail]; rfl)

/-- An identifier is read back. -/
theorem tokens_ident (sound : IsReadName name) (stops : Stops continuesName rest)
    (bracket : rest.head? ≠ some '(') (mark : name = "--".toList → rest.head? ≠ some '>') :
    tokens (identText name ++ rest) = .ident name :: tokens rest := by
  apply tokens_word (sound.starts rest) (sound.not_mark stops mark) sound.identText_ne_nil
  rw [readWord_plain, sound.read_back stops]
  rw [sound.read_back stops, List.drop_left]
  exact bracket

/-- A function is read back, up to its bracket. -/
theorem tokens_call (sound : IsReadName name)
    (address : lowercase name = "url".toList → readUrl rest = none) :
    tokens (identText name ++ '(' :: rest) = .function name :: tokens rest := by
  have stops : Stops continuesName ('(' :: rest) := stops_cons.mpr (by decide)
  have left : (identText name ++ '(' :: rest).drop (readName (identText name ++ '(' :: rest)).2 =
      '(' :: rest := by
    rw [sound.read_back stops, List.drop_left]
  have plain : (if lowercase name = "url".toList then readUrl rest else none) = none := by
    split
    next url => exact address url
    next => rfl
  have read := @tokens_word (identText name ++ ['(']) rest (.function name)
  simp only [List.append_assoc, List.singleton_append] at read
  apply read (sound.starts _) (sound.not_mark stops fun _ => by simp) (by simp)
  rw [readWord_bracket left, sound.read_back stops]
  dsimp only
  rw [plain, List.length_append]
  rfl

theorem tokens_keyword (sound : IsReadName name) (stops : Stops continuesName rest) :
    tokens ('@' :: (identText name ++ rest)) = .atKeyword name :: tokens rest := by
  apply tokens_of_scan
  simp [scan, isSpace, isNewline, sound.starts rest, sound.read_back stops]

theorem tokens_hashIdent (sound : IsReadName name) (stops : Stops continuesName rest) :
    tokens ('#' :: (identText name ++ rest)) = .idHash name :: tokens rest := by
  apply tokens_of_scan
  simp [scan, isSpace, isNewline, sound.starts rest, sound.read_back stops]

/-- What does not go on with a name does not start one behind a hyphen. -/
theorem not_startsName_hyphen (stops : Stops continuesName rest) :
    startsName ('-' :: rest) = false := by
  rw [not_startsName_hyphen_iff]
  cases rest with
  | nil => rfl
  | cons c rest =>
      have stop := stops_cons.mp stops
      rw [stops_cons, Bool.eq_false_iff, ne_eq, isWordStart_iff]
      rintro (start | rfl | rfl)
      · simp [continuesName, isNameChar, start] at stop
      · cases stop
      · cases stop

/-- The name of a hash that is no identifier stays one. -/
theorem IsHashName.spelled (sound : IsHashName name) (stops : Stops continuesName rest) :
    startsName (nameText name ++ rest) = false ∧
      (startsWithDigit (nameText name ++ rest) = true ∨
        (nameText name ++ rest).head? = some '-') := by
  have digit {d : Char} (more : Text) (inside : d.isDigit = true) :
      nameText (d :: more) = d :: nameText more := by
    have nonzero : d ≠ '\x00' := ne_of_class inside (by decide)
    have plain : (d.isAlphanum || d == '_' || d == '-' || decide (0x80 ≤ d.toNat)) = true := by
      simp [Char.isAlphanum, inside]
    have spelled : nameCharText d = [d] := by rw [nameCharText, if_neg nonzero, if_pos plain]
    show nameCharText d ++ nameText more = _
    rw [spelled]
    rfl
  obtain ⟨-, ⟨d, more, rfl, inside⟩ | ⟨more, rfl, later⟩⟩ := sound
  · rw [digit more inside, List.cons_append]
    refine ⟨?_, .inl inside⟩
    rw [Bool.eq_false_iff]
    intro starts
    have word := isWordStart_of_startsName starts
    rw [isWordStart_of_isDigit inside] at word
    cases word
  · have spelled : nameText ('-' :: more) = '-' :: nameText more := rfl
    rw [spelled, List.cons_append]
    refine ⟨?_, .inr rfl⟩
    cases more with
    | nil => exact not_startsName_hyphen stops
    | cons d more =>
        have inside := later d rfl
        rw [digit more inside, List.cons_append, startsName_hyphen]
        exact isWordStart_of_isDigit inside

theorem tokens_hashName (sound : IsHashName name) (stops : Stops continuesName rest) :
    tokens ('#' :: (nameText name ++ rest)) = .hash name :: tokens rest := by
  obtain ⟨starts, first⟩ := sound.spelled stops
  have read : readName (nameText name ++ rest) = (name, (nameText name).length) := by
    rw [readName_nameText sound.1, readName_stop stops, List.append_nil]
    rfl
  have counts : (startsWithDigit (nameText name ++ rest) ||
      (nameText name ++ rest).head? == some '-') = true := by
    rw [Bool.or_eq_true, beq_iff_eq]
    exact first
  apply tokens_of_scan
  rw [scan, if_neg (by decide), if_neg (by decide), if_pos rfl, read]
  dsimp only
  rw [starts, if_neg Bool.false_ne_true, if_pos counts]

end Names

/-!
### Strings and addresses
-/

section Texts

variable {value : Text}

theorem tokens_string (nonzero : '\x00' ∉ value) (rest : Text) :
    tokens (stringText value ++ rest) = .string value :: tokens rest := by
  have spelled : stringText value ++ rest =
      '"' :: (value.flatMap stringCharText ++ ['"'] ++ rest) := by
    simp [stringText]
  rw [spelled]
  apply tokens_of_scan
  rw [List.append_assoc, List.singleton_append]
  simp [scan, isSpace, isNewline, readString_spelled nonzero rest]

theorem tokens_url (nonzero : '\x00' ∉ value) (rest : Text) :
    tokens (urlText value ++ rest) = .url value :: tokens rest := by
  have spelled : urlText value ++ rest =
      "url".toList ++ '(' :: (value.flatMap urlCharText ++ ')' :: rest) := by
    simp [urlText]
  have name : readName (urlText value ++ rest) = ("url".toList, 3) := by
    rw [spelled]
    exact readName_all rfl (stops_cons.mpr (by decide))
  have left : (urlText value ++ rest).drop (readName (urlText value ++ rest)).2 =
      '(' :: (value.flatMap urlCharText ++ ')' :: rest) := by
    rw [name, spelled]
    rfl
  apply tokens_word (by rfl) (by rintro ⟨_, same⟩; cases same) (by simp [urlText])
  rw [readWord_bracket left, name, if_pos (by decide), readUrl_spelled nonzero]
  simp [urlText]
  omega

end Texts

/-!
### Numbers
-/

/-- The letter of an exponent with nothing behind it, or with a hyphen, is escaped in a unit. -/
def escapesLetter : Text → Bool
  | [] => false
  | c :: rest => (c = 'e' || c = 'E') && (rest = [] || rest.head? = some '-')

theorem unitText_escaped {unit : Text} (escapes : escapesLetter unit = true) :
    ∃ rest, (unit = 'e' :: rest ∨ unit = 'E' :: rest) ∧
      unitText unit = hexEscape 'e' ++ nameText rest ∧ escapesLetter ('e' :: rest) = true := by
  cases unit with
  | nil => cases escapes
  | cons c rest =>
      have code : hexEscape 'e' = "\\65 ".toList := by decide
      have opened : unitText (c :: rest) =
          if escapesLetter (c :: rest) = true then "\\65 ".toList ++ nameText rest
          else identText (c :: rest) := rfl
      have spelled : unitText (c :: rest) = hexEscape 'e' ++ nameText rest := by
        rw [opened, if_pos escapes, code]
      rw [escapesLetter, Bool.and_eq_true, Bool.or_eq_true, decide_eq_true_eq,
        decide_eq_true_eq] at escapes
      obtain ⟨rfl | rfl, alone⟩ := escapes
      · exact ⟨rest, .inl rfl, spelled, alone⟩
      · exact ⟨rest, .inr rfl, spelled, alone⟩

theorem unitText_plain {unit : Text} (plain : escapesLetter unit = false) :
    unitText unit = identText unit := by
  cases unit with
  | nil => rfl
  | cons c rest =>
      rw [unitText, if_neg]
      intro escapes
      have same : escapesLetter (c :: rest) = true := escapes
      rw [plain] at same
      cases same

/-- A character of a name is written with a backslash at the start, or as it is. -/
theorem head_nameCharText {c : Char} (nonzero : c ≠ '\x00') :
    ∃ d more, nameCharText c = d :: more ∧
      (d = '\\' ∨ d = c ∧ more = [] ∧ isPlainNameChar c = true) := by
  rcases nameCharText_cases nonzero with
    ⟨plain, spelled⟩ | ⟨ascii, spelled⟩ | ⟨digit, newline, spelled⟩
  · exact ⟨c, [], spelled, .inr ⟨rfl, rfl, plain⟩⟩
  · exact ⟨_, _, spelled, .inl rfl⟩
  · exact ⟨_, _, spelled, .inl rfl⟩

/-- A name is spelled with a backslash or a hyphen at the start, or with its first character. -/
theorem head_identText {name : Text} (sound : IsReadName name) :
    ∃ f tail, identText name = f :: tail ∧
      (f = '\\' ∨ f = '-' ∨ ∃ more, name = f :: more ∧ tail = nameText more) := by
  rw [identText.eq_def]
  split
  next => exact ⟨_, _, rfl, .inr (.inl rfl)⟩
  next => exact ⟨_, _, rfl, .inl rfl⟩
  next => exact ⟨_, _, rfl, .inr (.inl rfl)⟩
  next =>
    cases name with
    | nil => exact absurd rfl sound.1
    | cons c more =>
        rw [leadText]
        split
        next => exact ⟨_, _, rfl, .inl rfl⟩
        next =>
          have opened : nameText (c :: more) = nameCharText c ++ nameText more := rfl
          rw [opened]
          obtain ⟨d, tail, spelled, rfl | ⟨rfl, rfl, -⟩⟩ :=
            head_nameCharText (c := c) fun zero => sound.2 (by simp [zero])
          · exact ⟨_, _, by rw [spelled, List.cons_append], .inl rfl⟩
          · exact ⟨_, _, by rw [spelled, List.singleton_append], .inr (.inr ⟨more, rfl, rfl⟩)⟩

section Units

variable {unit rest : Text}

/-- A unit is spelled so that a name starts there. -/
theorem startsName_unitText (sound : IsReadName unit) (rest : Text) :
    startsName (unitText unit ++ rest) = true := by
  cases escapes : escapesLetter unit with
  | false =>
      rw [unitText_plain escapes]
      exact sound.starts rest
  | true =>
      obtain ⟨more, -, spelled, -⟩ := unitText_escaped escapes
      rw [spelled, List.append_assoc]
      exact startsName_hexEscape (by decide) _

/-- A unit is read back as one with the same spelling: a capital letter that is escaped becomes
a small one. -/
theorem readName_unitText (sound : IsReadName unit) (stops : Stops continuesName rest) :
    ∃ same, unitText same = unitText unit ∧
      readName (unitText unit ++ rest) = (same, (unitText unit).length) := by
  cases escapes : escapesLetter unit with
  | false =>
      rw [unitText_plain escapes]
      exact ⟨unit, unitText_plain escapes, sound.read_back stops⟩
  | true =>
      obtain ⟨more, either, spelled, again⟩ := unitText_escaped escapes
      have nonzero : '\x00' ∉ more := by
        intro member
        rcases either with rfl | rfl
        · exact sound.2 (List.mem_cons_of_mem _ member)
        · exact sound.2 (List.mem_cons_of_mem _ member)
      refine ⟨'e' :: more, ?_, ?_⟩
      · obtain ⟨other, same, respelled, -⟩ := unitText_escaped again
        have tail : more = other := by
          rcases same with same | same
          · exact (List.cons.inj same).2
          · exact (List.cons.inj same).2
        rw [respelled, spelled, tail]
      · rw [spelled, List.append_assoc, readName_hexEscape (by decide) (by decide),
          readName_nameText nonzero, readName_stop stops, List.append_nil, List.length_append]
        rfl

/-- The spelling of a unit does not become an exponent by what follows it. -/
theorem leadingExponent_unitText (sound : IsReadName unit)
    (alone : leadingExponent (unitText unit) = none) (rest : Text) :
    leadingExponent (unitText unit ++ rest) = none := by
  cases escapes : escapesLetter unit with
  | true =>
      obtain ⟨more, -, spelled, -⟩ := unitText_escaped escapes
      rw [spelled]
      rfl
  | false =>
      rw [unitText_plain escapes] at alone ⊢
      obtain ⟨f, tail, spelled, first⟩ := head_identText sound
      rw [spelled] at alone ⊢
      rw [List.cons_append, leadingExponent]
      by_cases letter : f = 'e' ∨ f = 'E'
      · -- the letter is that of the unit, and a character that is no sign stands behind it
        obtain ⟨d, more, rfl, rfl⟩ : ∃ d more, unit = f :: d :: more ∧
            tail = nameText (d :: more) := by
          rcases first with rfl | rfl | ⟨rest, rfl, same⟩
          · simp at letter
          · simp at letter
          · cases rest with
            | nil =>
                rcases letter with rfl | rfl
                · cases escapes
                · cases escapes
            | cons d more => exact ⟨d, more, rfl, same⟩
        have hyphen : d ≠ '-' := by
          rintro rfl
          rcases letter with rfl | rfl
          · cases escapes
          · cases escapes
        obtain ⟨g, others, head, kind⟩ := head_nameCharText (c := d) fun zero =>
          sound.2 (by simp [zero])
        have sign : g ≠ '+' ∧ g ≠ '-' := by
          rcases kind with rfl | ⟨rfl, -, plain⟩
          · decide
          · exact ⟨ne_of_class plain (by decide), hyphen⟩
        have opened : nameText (d :: more) = g :: (others ++ nameText more) := by
          show nameCharText d ++ nameText more = _
          rw [head, List.cons_append]
        rw [opened] at alone ⊢
        rw [List.cons_append, afterSign_of_ne _ sign.1 sign.2]
        rw [leadingExponent, afterSign_of_ne _ sign.1 sign.2] at alone
        have digit : (f == 'e' || f == 'E') = true := by simpa using letter
        have last : startsWithDigit (g :: (others ++ nameText more)) = false := by
          rw [digit, Bool.true_and] at alone
          split at alone
          next => cases alone
          next digit => exact Bool.eq_false_iff.mpr digit
        have same : startsWithDigit (g :: (others ++ nameText more ++ rest)) = false := last
        rw [same, Bool.and_false]
        rfl
      · rw [not_or] at letter
        simp [letter]

/-- A printed number ends before a unit, if it does in the spelling of the two. -/
theorem Written.Printed.ends_unit {w : Written} (printed : w.Printed) (sound : IsReadName unit)
    (settled : (readWritten (w.text ++ unitText unit)).text = w.text) (rest : Text) :
    w.Ends (unitText unit ++ rest) := by
  have before (s : Text) (starts : Swatch.startsName s = true) :
      Stops Char.isDigit s ∧ leadingFraction s = none := by
    cases s with
    | nil => exact ⟨rfl, rfl⟩
    | cons c s =>
        have first := isWordStart_of_startsName starts
        have point : c ≠ '.' := ne_of_class first (by decide)
        refine ⟨stops_cons.mpr ?_, leadingFraction.eq_2 _ fun _ same =>
          point (List.cons.inj same).1⟩
        rcases isWordStart_iff.mp first with start | rfl | rfl
        · exact isDigit_of_isNameStart start
        · rfl
        · rfl
  obtain ⟨digits, fraction⟩ := before _ (startsName_unitText sound rest)
  refine ⟨digits, fun _ _ => fraction, fun bare => leadingExponent_unitText sound ?_ rest⟩
  have starts := startsName_unitText sound []
  rw [List.append_nil] at starts
  obtain ⟨digits, fraction⟩ := before _ starts
  rw [readWritten_exponent printed.spelled bare digits fun _ => fraction] at settled
  have length := congrArg List.length settled
  cases found : leadingExponent (unitText unit) with
  | none => rfl
  | some e =>
      rw [found] at length
      simp [Written.text, Written.exponentText, bare] at length

/-- A dimension is read back as one with the same spelling. -/
theorem tokens_dimension {n : Numeral} (sound : IsReadName unit)
    (settled : (Token.dimension n unit).settled = true) (stops : Stops continuesName rest) :
    ∃ u : Token, u.Twin (.dimension n unit) ∧
      tokens (n.text ++ unitText unit ++ rest) = u :: tokens rest := by
  obtain ⟨w, printed, -, spelled⟩ := textOf_printed n n.size
  have text : n.text = w.text := spelled
  simp only [Token.settled, Bool.and_eq_true, beq_iff_eq, text] at settled
  have itself : w.number.text = w.text := by
    have read := readWritten_text printed.spelled w.ends_nil
    rw [List.append_nil] at read
    rw [read] at settled
    exact settled.1
  obtain ⟨same, respelled, name⟩ := readName_unitText sound stops
  refine ⟨.dimension w.number same, ⟨?_, rfl, fun _ => by simp, by simp, rfl, rfl⟩, ?_⟩
  · show w.number.text ++ unitText same = n.text ++ unitText unit
    rw [itself, respelled, text]
  · rw [text]
    apply tokens_numeric
    · rw [List.append_assoc]
      exact printed.spelled.startsNumber _
    · have starts := startsName_unitText sound []
      intro empty
      rw [(List.append_eq_nil_iff.mp empty).2] at starts
      cases starts
    · rw [List.append_assoc, readNumeric_dimension printed.spelled
        (printed.ends_unit sound settled.2 rest) (startsName_unitText sound rest), name,
        List.length_append]

end Units

section Numerals

variable {n : Numeral} {rest : Text}

theorem Written.Spelled.text_ne_nil {w : Written} (proper : w.Spelled) : w.text ≠ [] := by
  intro empty
  have starts := proper.startsNumber []
  rw [empty] at starts
  cases starts

/-- A number is read back as one with the same spelling. -/
theorem tokens_number (settled : (Token.number n).settled = true)
    (ends : (Token.number n).Ends rest) :
    ∃ u : Token, u.Twin (.number n) ∧ tokens (n.text ++ rest) = u :: tokens rest := by
  obtain ⟨w, printed, -, spelled⟩ := textOf_printed n n.size
  have text : n.text = w.text := spelled
  obtain ⟨digits, fraction, percent, unit⟩ := ends
  simp only [Token.settled, beq_iff_eq, text] at settled
  have itself : w.number.text = w.text := by
    have read := readWritten_text printed.spelled w.ends_nil
    rw [List.append_nil] at read
    rw [read] at settled
    exact settled
  have exponent : leadingExponent rest = none := by
    cases rest with
    | nil => rfl
    | cons c rest =>
        rw [leadingExponent]
        split
        next letter =>
          rw [Bool.and_eq_true, Bool.or_eq_true, beq_iff_eq, beq_iff_eq] at letter
          have start : isNameStart c = true := by
            rcases letter.1 with rfl | rfl
            · rfl
            · rfl
          rw [startsName_of_isNameStart rest start] at unit
          cases unit
        next => rfl
  refine ⟨.number w.number, ⟨?_, rfl, fun _ => by simp, by simp, rfl, rfl⟩, ?_⟩
  · show w.number.text = n.text
    rw [itself, text]
  · rw [text]
    exact tokens_numeric (printed.spelled.startsNumber rest) printed.spelled.text_ne_nil
      (readNumeric_number printed.spelled ⟨digits, fun _ _ => fraction, fun _ => exponent⟩ percent
        unit)

/-- A percentage is read back as one with the same spelling, whatever follows. -/
theorem tokens_percentage (settled : (Token.percentage n).settled = true) (rest : Text) :
    ∃ u : Token, u.Twin (.percentage n) ∧ tokens (n.percentText ++ rest) = u :: tokens rest := by
  obtain ⟨w, printed, -, spelled⟩ :=
    textOf_printed n (single.mul n.size (single.ofRatio 100 1))
  have text : n.percentText = w.text ++ ['%'] := congrArg (· ++ ['%']) spelled
  simp only [Token.settled, beq_iff_eq, text] at settled
  have itself : w.percentage.percentText = w.text ++ ['%'] := by
    have ends : w.Ends ['%'] := ⟨rfl, fun _ _ => rfl, fun _ => rfl⟩
    rw [readWritten_text printed.spelled ends] at settled
    exact settled
  refine ⟨.percentage w.percentage, ⟨?_, rfl, fun _ => by simp, by simp, rfl, rfl⟩, ?_⟩
  · show w.percentage.percentText = n.percentText
    rw [itself, text]
  · rw [text]
    apply tokens_numeric
    · rw [List.append_assoc]
      exact printed.spelled.startsNumber _
    · simp
    · rw [List.append_assoc, List.singleton_append, readNumeric_percentage printed.spelled,
        List.length_append]
      rfl

end Numerals

/-!
### All tokens
-/

theorem tokens_matcher (kind : Matcher) (rest : Text) :
    tokens (kind.text ++ rest) = .matcher kind :: tokens rest := by
  have read {c : Char} (scanned : scan c (['='] ++ rest) = (.matcher kind, 1)) :
      tokens (c :: (['='] ++ rest)) = .matcher kind :: tokens rest := tokens_of_scan scanned
  cases kind with
  | includes => exact read rfl
  | dash => exact read rfl
  | start => exact read rfl
  | finish => exact read rfl
  | substring => exact read rfl

/-- A token is read back from its spelling, up to a text that does not go on with it. -/
theorem tokens_text {t : Token} {rest : Text} (sound : t.Sound) (settled : t.settled = true)
    (dark : t.isBlank = false) (whole : t.isBroken = false) (ends : t.Ends rest) :
    ∃ u : Token, u.Twin t ∧ tokens (t.text ++ rest) = u :: tokens rest := by
  cases t with
  | ident name =>
      exact ⟨_, .refl _, tokens_ident sound ends.1 ends.2.1 ends.2.2⟩
  | atKeyword name => exact ⟨_, .refl _, tokens_keyword sound ends⟩
  | hash name => exact ⟨_, .refl _, tokens_hashName sound ends⟩
  | idHash name => exact ⟨_, .refl _, tokens_hashIdent sound ends⟩
  | string value => exact ⟨_, .refl _, tokens_string sound rest⟩
  | badString value => cases whole
  | url value => exact ⟨_, .refl _, tokens_url sound rest⟩
  | badUrl contents => cases whole
  | function name =>
      refine ⟨_, .refl _, ?_⟩
      have spelled : (Token.function name).text ++ rest = identText name ++ '(' :: rest := by
        simp [Token.text]
      rw [spelled]
      exact tokens_call sound ends
  | number n => exact tokens_number settled ends
  | percentage n => exact tokens_percentage settled rest
  | dimension n unit => exact tokens_dimension sound settled ends
  | delim c => exact ⟨_, .refl _, tokens_mark ends⟩
  | whitespace => cases dark
  | comment text => cases dark
  | colon => exact ⟨_, .refl _, tokens_colon rest⟩
  | semicolon => exact ⟨_, .refl _, tokens_semicolon rest⟩
  | comma => exact ⟨_, .refl _, tokens_comma rest⟩
  | matcher kind => exact ⟨_, .refl _, tokens_matcher kind rest⟩
  | commentOpen =>
      have scanned : scan '<' ("!--".toList ++ rest) = (.commentOpen, 3) := rfl
      exact ⟨_, .refl _, tokens_of_scan scanned⟩
  | commentClose =>
      have scanned : scan '-' ("->".toList ++ rest) = (.commentClose, 2) := rfl
      exact ⟨_, .refl _, tokens_of_scan scanned⟩
  | opening bracket =>
      refine ⟨_, .refl _, ?_⟩
      cases bracket with
      | round => exact tokens_mark rfl
      | square => exact tokens_mark rfl
      | curly => exact tokens_mark rfl
  | closing bracket =>
      refine ⟨_, .refl _, ?_⟩
      cases bracket with
      | round => exact tokens_mark rfl
      | square => exact tokens_mark rfl
      | curly => exact tokens_mark rfl

end Swatch
