/-
Module: Swatch.Proofs.Neighbours
Purpose: How a text that is printed right behind a token starts, by the source it is printed for.
Main exports:
  Token.fuses, separate, Turns, Fit, IsApart, Follows, endsName_readName
-/
import Swatch.Proofs.Lines
import Swatch.Proofs.Rescan

namespace Swatch

/-!
### Tokens that fuse
-/

/-- Whether a token goes on with digits that stand right behind it, or is a mark that starts
something else before a digit. -/
def Token.takesDigits : Token → Bool
  | .ident _ => true
  | .atKeyword _ => true
  | .hash _ => true
  | .idHash _ => true
  | .number _ => true
  | .dimension _ _ => true
  | .delim c => c == '#' || c == '.'
  | _ => false

/-- Whether a token goes on with those that follow it when they are printed.  A number without a
sign is printed with a digit at the start, also where a point stood there in the source; and two
hyphens that were escaped are not when they are printed. -/
def Token.fuses (t : Token) (following : List Token) : Bool :=
  (t.takesDigits && following.head?.any fun u => startsWithDigit u.text) ||
    (t == .ident "--".toList && following.head? == some (.delim '>')) ||
    (t == .delim '<' && following.head? == some (.delim '!') &&
      following.tail.head?.any fun u => "--".toList.isPrefixOf u.text)

/-- Whether all tokens are settled, and none fuses with what follows it. -/
def separate : List Token → Bool
  | [] => true
  | t :: following => t.settled && !t.fuses following && separate following

/-!
### First characters
-/

/-- How the first character of a token in print comes from its source. -/
inductive Turns (c : Char) (s : Text) : Char → Prop where
  | same (escape : c ≠ '\\') (number : startsNumber (c :: s) = true → c = '+' ∨ c = '-') :
      Turns c s c
  | quote : Turns c s '"'
  | digit {d : Char} (inside : d.isDigit = true) (number : startsNumber (c :: s) = true)
      (plus : c ≠ '+') (minus : c ≠ '-') : Turns c s d
  | word {d : Char} (starts : startsName (c :: s) = true) (inside : isWordStart d = true) :
      Turns c s d

section Source

variable {c : Char} {s : Text}

/-- What has no value is read back as a number beyond all magnitudes, which is printed in another
way. -/
theorem valued_of_settled {n : Numeral} :
    ((readWritten n.text).number.text = n.text → n.size ≠ .undefined) ∧
      ((readWritten n.percentText).percentage.percentText = n.percentText →
        single.mul n.size (single.ofRatio 100 1) ≠ .undefined) := by
  constructor
  · intro settled none
    have text : n.text = "5.10424e38".toList := by rw [Numeral.text, none, textOf_undefined]
    rw [text] at settled
    revert settled
    decide +kernel
  · intro settled none
    have text : n.percentText = "5.10424e38%".toList := by
      rw [Numeral.percentText, none, textOf_undefined]
      rfl
    rw [text] at settled
    revert settled
    decide +kernel

/-- A number that is printed as what it is read as is printed with its sign and a digit at the
start. -/
theorem head_readNumeric {s : Text} (settled : (readNumeric s).1.settled = true) :
    ∃ d more, (readNumeric s).1.text = (leadingSign s).toList ++ d :: more ∧
      d.isDigit = true := by
  have spelled {n : Numeral} {size : Magnitude} (valued : size ≠ .undefined)
      (read : n = (readWritten s).number ∨ n = (readWritten s).percentage) (unit : Text) :
      ∃ d more, n.textOf size ++ unit = (leadingSign s).toList ++ d :: more ∧
        d.isDigit = true := by
    obtain ⟨d, more, spelled, digit⟩ := head_textOf n size
    rw [signText_read read valued] at spelled
    exact ⟨d, more ++ unit, by rw [spelled, List.append_assoc, List.cons_append], digit⟩
  rw [readNumeric] at settled ⊢
  dsimp only at settled ⊢
  split at settled
  next percent =>
    rw [if_pos percent]
    have valued := valued_of_settled.2 (eq_of_beq settled)
    exact spelled valued (.inr rfl) ['%']
  next percent =>
    rw [if_neg percent]
    split at settled
    next unit =>
      rw [if_pos unit]
      rw [Token.settled, Bool.and_eq_true] at settled
      have valued := valued_of_settled.1 (eq_of_beq settled.1)
      exact spelled valued (.inl rfl) (unitText _)
    next unit =>
      rw [if_neg unit]
      have valued := valued_of_settled.1 (eq_of_beq settled)
      obtain ⟨d, more, text, digit⟩ := spelled valued (.inl rfl) []
      rw [List.append_nil] at text
      exact ⟨d, more, text, digit⟩

/-- A number keeps its sign, or starts with a digit. -/
theorem turns_readNumeric (number : startsNumber (c :: s) = true)
    (settled : (readNumeric (c :: s)).1.settled = true) :
    ∃ d more, (readNumeric (c :: s)).1.text = d :: more ∧ Turns c s d := by
  obtain ⟨d, more, spelled, digit⟩ := head_readNumeric settled
  by_cases signed : c = '+' ∨ c = '-'
  · have sign : leadingSign (c :: s) = some c := by
      rcases signed with rfl | rfl
      · rfl
      · rfl
    have escape : c ≠ '\\' := by
      rcases signed with rfl | rfl
      · decide
      · decide
    rw [sign] at spelled
    exact ⟨c, d :: more, spelled, .same escape fun _ => signed⟩
  · rw [not_or] at signed
    rw [leadingSign_of_ne s signed.1 signed.2] at spelled
    exact ⟨d, more, spelled, .digit digit number signed.1 signed.2⟩

/-- A word is printed with a character that a word starts with. -/
theorem turns_readWord (starts : startsName (c :: s) = true)
    (whole : (readWord (c :: s)).1.isBroken = false) :
    ∃ d more, (readWord (c :: s)).1.text = d :: more ∧ Turns c s d := by
  have sound := isReadName_readName starts
  have name (rest : Text) : ∃ d more, identText (readName (c :: s)).1 ++ rest = d :: more ∧
      Turns c s d := by
    have spelled := sound.starts rest
    cases text : identText (readName (c :: s)).1 ++ rest with
    | nil =>
        rw [text] at spelled
        cases spelled
    | cons d more =>
        rw [text] at spelled
        exact ⟨d, more, rfl, .word starts (isWordStart_of_startsName spelled)⟩
  rcases readWord_cases (c :: s) with ⟨value, read, -⟩ | ⟨contents, read⟩ | ⟨read, -⟩ | ⟨read, -⟩
  · rw [read]
    exact ⟨'u', _, rfl, .word starts (by decide)⟩
  · rw [read] at whole
    cases whole
  · rw [read]
    exact name ['(']
  · rw [read]
    obtain ⟨d, more, spelled, turns⟩ := name []
    rw [List.append_nil] at spelled
    exact ⟨d, more, spelled, turns⟩

theorem text_of_matcher? {kind : Matcher} (found : matcher? c = some kind) :
    kind.text = [c, '='] := by
  rw [matcher?.eq_def] at found
  split at found
  all_goals
    cases found
    try rfl

/-- A mark is printed as it is. -/
theorem head_readPunctuation (c : Char) (s : Text) :
    ∃ more, (readPunctuation c s).1.text = c :: more := by
  rw [readPunctuation.eq_def]
  split
  any_goals exact ⟨_, rfl⟩
  next =>
    split
    next kind found => exact ⟨['='], text_of_matcher? found⟩
    next => exact ⟨[], rfl⟩

/-- A character that is no mark with an equals sign, and that no other mark starts with here, is
read by itself. -/
theorem readPunctuation_plain (alone : readPunctuation c ['='] = readPunctuation c [])
    (comment : c = '/' → ¬['*'] <+: s) (close : c = '-' → ¬"->".toList <+: s)
    (open_ : c = '<' → ¬"!--".toList <+: s) : readPunctuation c s = readPunctuation c [] := by
  by_cases equals : ['='] <+: s
  · obtain ⟨more, rfl⟩ := equals
    rw [List.singleton_append, readPunctuation_equals, alone]
  · exact readPunctuation_alone comment close open_ equals

/-- A character that no other kind of token starts with starts a mark. -/
theorem scan_mark (space : isSpace c = false) (double : c ≠ '"') (single : c ≠ '\'')
    (hash : c ≠ '#') (at_ : c ≠ '@') (number : startsNumber (c :: s) = false)
    (word : startsWord c s = false) : scan c s = readPunctuation c s := by
  simp [scan, space, double, single, hash, at_, number, word]

/-- These two are marks by themselves, whatever follows. -/
theorem scan_lone (lone : c = '!' ∨ c = '>') (s : Text) : scan c s = (.delim c, 0) := by
  have number : startsNumber (c :: s) = false := by
    rcases lone with rfl | rfl <;>
      exact not_startsNumber s (by decide) (by decide) rfl (by decide)
  rcases lone with rfl | rfl
  · rw [scan_mark rfl (by decide) (by decide) (by decide) (by decide) number rfl]
    exact readPunctuation_plain (c := '!') rfl (by simp) (by simp) (by simp)
  · rw [scan_mark rfl (by decide) (by decide) (by decide) (by decide) number rfl]
    exact readPunctuation_plain (c := '>') rfl (by simp) (by simp) (by simp)

/-- A hyphen before neither a number nor a name is a mark of its own. -/
theorem scan_hyphen (number : startsNumber ('-' :: s) = false)
    (starts : startsName ('-' :: s) = false) : scan '-' s = (.delim '-', 0) := by
  have word : startsWord '-' s = false := by
    rw [startsWord, if_pos rfl, starts, Bool.and_false]
  have close : ¬"->".toList <+: s := by
    rintro ⟨more, rfl⟩
    cases starts
  rw [scan_mark rfl (by decide) (by decide) (by decide) (by decide) number word]
  exact readPunctuation_plain (c := '-') rfl (by simp) (fun _ => close) (by simp)

/-- The first token of a text is printed, and does not fuse with what follows it. -/
structure Fit (c : Char) (s : Text) : Prop where
  dark : (scan c s).1.isBlank = false
  whole : (scan c s).1.isBroken = false
  settled : (scan c s).1.settled = true
  single : (scan c s).1.fuses (tokens (s.drop (scan c s).2)) = false

/-- Every token is printed with a first character that comes from its source. -/
theorem Fit.turns (fit : Fit c s) : ∃ d more, (scan c s).1.text = d :: more ∧ Turns c s d := by
  obtain ⟨dark, whole, settled, -⟩ := fit
  have kind := scanned_scan c s
  generalize (scan c s).1 = t at kind dark whole settled ⊢
  generalize (scan c s).2 = taken at kind
  have hash (s : Text) : Turns '#' s '#' :=
    .same (by decide) fun number => by
      rw [not_startsNumber s (by decide) (by decide) rfl (by decide)] at number
      cases number
  have at_ (s : Text) : Turns '@' s '@' :=
    .same (by decide) fun number => by
      rw [not_startsNumber s (by decide) (by decide) rfl (by decide)] at number
      cases number
  cases kind with
  | space blank => cases dark
  | string quote read => exact ⟨_, _, rfl, .quote⟩
  | badString quote read => cases whole
  | idHash starts => exact ⟨_, _, rfl, hash s⟩
  | hash starts first => exact ⟨_, _, rfl, hash s⟩
  | loneHash starts digit hyphen => exact ⟨_, _, rfl, hash s⟩
  | atKeyword starts => exact ⟨_, _, rfl, at_ s⟩
  | loneAt starts => exact ⟨_, _, rfl, at_ s⟩
  | number starts => exact turns_readNumeric starts settled
  | word number starts => exact turns_readWord (startsName_of_startsWord starts) whole
  | mark space double single hash at_ number word =>
      obtain ⟨more, spelled⟩ := head_readPunctuation c s
      have escape : c ≠ '\\' := by
        rintro rfl
        rw [readPunctuation_plain (c := '\\') rfl (by simp) (by simp) (by simp)] at settled
        cases settled
      refine ⟨c, more, spelled, .same escape fun starts => ?_⟩
      rw [number] at starts
      cases starts

end Source

/-!
### Printed texts behind their source

What ends a token in its source is the text behind it.  In print another text stands there: the
spelling of what follows, or a space, a comma or a closing bracket.  The two texts are compared
token by token, since what a token may go on with can be more than one character: an escape, a
sign and a digit, or a point and a digit.
-/

/-- The characters that end whatever is printed before them: a space, a comma and the closing
brackets. -/
def edges : Text := [' ', ',', ')', ']', '\x7d']

/-- The text is empty or starts with such a character. -/
def IsApart (r : Text) : Prop := Stops (fun c => !edges.contains c) r

/-- The printed text `r` stands behind a token as the text `s` stands behind it in the source:
it is set apart, or starts with the first token of `s`, and goes on in the same way unless
that token opens a block. -/
inductive Follows : Text → Text → Prop where
  | apart {s r : Text} (edge : IsApart r) : Follows s r
  | token {c : Char} {s r : Text} (fit : Fit c s)
      (later : (scan c s).1.opens? = none → Follows (s.drop (scan c s).2) r) :
      Follows (c :: s) ((scan c s).1.text ++ r)

/-- A character that is printed at the start of a token only where it starts one in the source. -/
def isLoneMark (e : Char) : Bool :=
  !(edges.contains e || e == '"' || e.isDigit || isWordStart e)

/-- What is set apart does not go on with any class that has no such character. -/
theorem IsApart.stops {r : Text} (edge : IsApart r) {p : Char → Bool}
    (outside : edges.any p = false) : Stops p r := by
  cases r with
  | nil => rfl
  | cons c r =>
      have inside : c ∈ edges := by simpa [IsApart, stops_cons] using edge
      exact stops_cons.mpr (Bool.eq_false_iff.mpr (List.any_eq_false.mp outside c inside))

section Follows

variable {s r : Text}

/-- What is printed is set apart, or its first character comes from that of the source. -/
theorem Follows.head (follows : Follows s r) :
    IsApart r ∨ ∃ c u d v, s = c :: u ∧ r = d :: v ∧ Turns c u d := by
  cases follows with
  | apart edge => exact .inl edge
  | token fit later =>
      obtain ⟨d, more, spelled, turns⟩ := fit.turns
      exact .inr ⟨_, _, d, _, rfl, by rw [spelled, List.cons_append], turns⟩

/-- Such a character does not appear in print. -/
theorem Follows.head_eq (follows : Follows s r) {e : Char} (mark : isLoneMark e = true)
    (first : r.head? = some e) : s.head? = some e := by
  simp only [isLoneMark, Bool.not_eq_true', Bool.or_eq_false_iff] at mark
  obtain ⟨⟨⟨edge, quote⟩, digit⟩, word⟩ := mark
  rcases follows.head with apart | ⟨c, u, d, v, rfl, rfl, turns⟩
  · obtain ⟨more, rfl⟩ := List.head?_eq_some_iff.mp first
    rw [IsApart, stops_cons, edge] at apart
    cases apart
  · obtain rfl := Option.some.inj first
    cases turns with
    | same => rfl
    | quote => cases quote
    | digit inside =>
        rw [digit] at inside
        cases inside
    | word starts inside =>
        rw [word] at inside
        cases inside

/-- The start of a word does not appear in print. -/
theorem Follows.stopsWord (follows : Follows s r) (stops : Stops isWordStart s) :
    Stops isWordStart r := by
  rcases follows.head with apart | ⟨c, u, d, v, rfl, rfl, turns⟩
  · exact apart.stops rfl
  · rw [stops_cons] at stops ⊢
    cases turns with
    | same => exact stops
    | quote => rfl
    | digit inside => exact isWordStart_of_isDigit inside
    | word starts =>
        rw [isWordStart_of_startsName starts] at stops
        cases stops

/-- Where digits are printed, a number without a sign stands in the source. -/
theorem Follows.number (follows : Follows s r) (digit : startsWithDigit r = true) :
    startsNumber s = true ∧ s.head? ≠ some '+' ∧ s.head? ≠ some '-' := by
  rcases follows.head with apart | ⟨c, u, d, v, rfl, rfl, turns⟩
  · have stops : Stops Char.isDigit r := apart.stops rfl
    rw [startsWithDigit, stops] at digit
    cases digit
  · have inside : d.isDigit = true := digit
    cases turns with
    | same =>
        have plus : c ≠ '+' := ne_of_class inside (by decide)
        have minus : c ≠ '-' := ne_of_class inside (by decide)
        refine ⟨?_, by simpa using plus, by simpa using minus⟩
        rw [startsNumber, afterSign_of_ne u plus minus]
        simp [startsWithDigit, inside]
    | quote => cases inside
    | digit _ number plus minus => exact ⟨number, by simpa using plus, by simpa using minus⟩
    | word starts word =>
        rw [isWordStart_of_isDigit inside] at word
        cases word

/-- No digits are printed behind a token that takes them. -/
theorem Follows.noDigit (follows : Follows s r) {t : Token} (takes : t.takesDigits = true)
    (single : t.fuses (tokens s) = false) : startsWithDigit r = false := by
  cases follows with
  | apart edge =>
      exact edge.stops rfl
  | token fit later =>
      obtain ⟨d, more, spelled, -⟩ := fit.turns
      rw [tokens_cons, Token.fuses, takes, List.head?_cons, Option.any_some, Bool.true_and,
        Bool.or_eq_false_iff, Bool.or_eq_false_iff, spelled] at single
      rw [spelled]
      exact single.1.1

/-- No fraction is printed behind a token: a number is printed with a digit before its point,
and no digit behind a point of its own. -/
theorem Follows.noFraction (follows : Follows s r) : leadingFraction r = none := by
  -- a number starts with its sign or a digit in print, so a point is a mark of its own
  by_cases point : r.head? = some '.'
  · have source := follows.head_eq (by decide) point
    cases follows with
    | apart edge =>
        obtain ⟨more, rfl⟩ := List.head?_eq_some_iff.mp point
        cases edge
    | @token c u v fit later =>
        obtain rfl := Option.some.inj source
        have number : startsNumber ('.' :: u) = false := by
          obtain ⟨d, more, spelled, turns⟩ := fit.turns
          rw [spelled, List.cons_append, List.head?_cons, Option.some_inj] at point
          rw [point] at turns
          rw [Bool.eq_false_iff]
          intro starts
          cases turns with
          | same _ signed =>
              rcases signed starts with same | same
              · revert same
                decide
              · revert same
                decide
          | digit inside => cases inside
          | word _ inside => cases inside
        have scanned : scan '.' u = (.delim '.', 0) := by
          rw [scan_mark rfl (by decide) (by decide) (by decide) (by decide) number rfl]
          exact readPunctuation_plain (c := '.') rfl (by simp) (by simp) (by simp)
        have single := fit.single
        rw [scanned] at single later ⊢
        have digit := (later rfl).noDigit rfl single
        rw [Token.text, List.singleton_append, leadingFraction, digit]
        rfl
  · cases r with
    | nil => rfl
    | cons c r =>
        exact leadingFraction.eq_2 _ fun _ same =>
          point (congrArg some (List.cons.inj same).1)

/-- The start of a name does not appear in print. -/
theorem Follows.noName (follows : Follows s r) (starts : startsName s = false) :
    startsName r = false := by
  cases follows with
  | apart edge =>
      have stops : Stops isWordStart r := edge.stops rfl
      rw [Bool.eq_false_iff]
      intro starts
      cases r with
      | nil => cases starts
      | cons c r =>
          have inside := isWordStart_of_startsName starts
          rw [stops_cons.mp stops] at inside
          cases inside
  | @token c u v fit later =>
      by_cases hyphen : c = '-'
      · subst hyphen
        by_cases number : startsNumber ('-' :: u) = true
        · -- a digit is printed behind the sign of a number
          have settled := fit.settled
          rw [scan_number number] at settled ⊢
          obtain ⟨d, more, spelled, digit⟩ := head_readNumeric settled
          have sign : leadingSign ('-' :: u) = some '-' := rfl
          rw [spelled, sign]
          exact isWordStart_of_isDigit digit
        · rw [Bool.not_eq_true] at number
          have scanned := scan_hyphen number starts
          rw [scanned] at later ⊢
          have behind := (later rfl).stopsWord (not_startsName_hyphen_iff.mp starts)
          exact not_startsName_hyphen_iff.mpr behind
      · obtain ⟨d, more, spelled, turns⟩ := fit.turns
        rw [spelled, Bool.eq_false_iff]
        intro printed
        have inside := isWordStart_of_startsName printed
        cases turns with
        | same escape =>
            rw [List.cons_append, startsName.eq_3 c _ (fun _ _ same _ => hyphen same) escape]
              at printed
            rw [startsName_of_isNameStart u printed] at starts
            cases starts
        | quote => cases inside
        | digit digit =>
            rw [isWordStart_of_isDigit digit] at inside
            cases inside
        | word again =>
            rw [again] at starts
            cases starts

/-- A hyphen does not appear in print before neither a name nor a hyphen. -/
theorem Follows.noHyphen (follows : Follows s r) (starts : startsName s = false)
    (hyphen : s.head? ≠ some '-') : r.head? ≠ some '-' := by
  rcases follows.head with apart | ⟨c, u, d, v, rfl, rfl, turns⟩
  · intro first
    obtain ⟨more, rfl⟩ := List.head?_eq_some_iff.mp first
    cases apart
  · intro first
    obtain rfl := Option.some.inj first
    cases turns with
    | same => exact hyphen rfl
    | digit inside => cases inside
    | word again =>
        rw [starts] at again
        cases again

/-- Where a name ends: no character of a name follows, and a backslash only before the end of a
line. -/
def EndsName (s : Text) : Prop :=
  ∀ c u, s = c :: u → isNameChar c = false ∧ (c = '\\' → startsNewline u = true)

/-- What goes on with a name does not appear in print, apart from digits. -/
theorem Follows.stopsName (follows : Follows s r) (ends : EndsName s)
    (digit : startsWithDigit r = false) : Stops continuesName r := by
  rcases follows.head with apart | ⟨c, u, d, v, rfl, rfl, turns⟩
  · exact apart.stops rfl
  · obtain ⟨name, escaped⟩ := ends c u rfl
    rw [stops_cons]
    cases turns with
    | same escape => simp [continuesName, name, escape]
    | quote => rfl
    | digit inside =>
        have other : d.isDigit = false := digit
        rw [inside] at other
        cases other
    | word starts =>
        rcases isWordStart_iff.mp (isWordStart_of_startsName starts) with start | rfl | rfl
        · simp [isNameChar, start] at name
        · cases name
        · rw [startsName, escaped rfl] at starts
          cases starts

end Follows

/-- A name is read up to where it ends. -/
theorem endsName_readName (s : Text) : EndsName (s.drop (readName s).2) := by
  fun_induction readName s with
  | case1 => simp [EndsName]
  | case2 s newline =>
      intro c u same
      obtain ⟨rfl, rfl⟩ := List.cons.inj same
      exact ⟨rfl, fun _ => newline⟩
  | case3 s newline d escape escaped name taken read ih =>
      rw [read] at ih
      have left : ('\\' :: s).drop (1 + escape + taken) = (s.drop escape).drop taken := by
        rw [List.drop_drop, Nat.add_assoc, Nat.add_comm 1, List.drop_succ_cons]
      rw [left]
      exact ih
  | case4 c s escape inside name taken read ih =>
      rw [read] at ih
      rw [Nat.add_comm 1, List.drop_succ_cons]
      exact ih
  | case5 c s escape outside =>
      intro d u same
      obtain ⟨rfl, rfl⟩ := List.cons.inj same
      exact ⟨Bool.not_eq_true _ ▸ outside, fun same => absurd same escape⟩

end Swatch
