/-
Module: Swatch.Proofs.Gaps
Purpose: White space and comments between the parts of a colour are read as blanks, and written
  as one space behind each comma and nothing else.
Main exports:
  IsGap, IsGap.tokens_eq, LooseNumber, LooseColour, LooseColour.reads
-/
import Swatch.Proofs.Phrase
import Swatch.Proofs.Pieces
import Swatch.Proofs.Reread

namespace Swatch

/-!
### Gaps
-/

/-- White space and complete comments, in any order. -/
inductive IsGap : Text → Prop where
  | nil : IsGap []
  | space {c : Char} {more : Text} (space : isSpace c = true) (gap : IsGap more) :
      IsGap (c :: more)
  | comment {text more : Text} (inside : ¬"*/".toList <:+: text) (gap : IsGap more) :
      IsGap ('/' :: '*' :: (text ++ '*' :: '/' :: more))

/-- Reading in front of a text that starts with no white space finds blanks only. -/
def FindsBlanks (read : Text → List Token) : Prop :=
  ∃ blanks : List Token, (∀ t ∈ blanks, t.isBlank = true) ∧
    ∀ rest, Stops isSpace rest → read rest = blanks ++ tokens rest

/-- One more blank in front. -/
theorem FindsBlanks.cons {read later : Text → List Token} {t : Token} (finds : FindsBlanks later)
    (blank : t.isBlank = true)
    (first : ∀ rest, Stops isSpace rest → read rest = t :: later rest) : FindsBlanks read := by
  obtain ⟨blanks, all, found⟩ := finds
  refine ⟨t :: blanks, List.forall_mem_cons.mpr ⟨blank, all⟩, fun rest dark => ?_⟩
  rw [first rest dark, found rest dark, List.cons_append]

/-- A gap is read as blanks, and so is what is left of it behind its first white space. -/
theorem IsGap.finds {gap : Text} (isGap : IsGap gap) :
    FindsBlanks (fun rest => tokens (gap ++ rest)) ∧
      FindsBlanks (fun rest => tokens ((gap ++ rest).dropWhile isSpace)) := by
  induction isGap with
  | nil =>
      refine ⟨⟨[], List.forall_mem_nil _, fun _ _ => rfl⟩, [], List.forall_mem_nil _, ?_⟩
      intro rest dark
      exact congrArg tokens (dropWhile_of_stops dark)
  | @space c more space gap ih =>
      -- A run of white space is one token, so what is read next is behind the whole run.
      obtain ⟨-, later⟩ := ih
      constructor
      · exact later.cons rfl fun rest _ => tokens_space (more ++ rest) space
      · simp only [List.cons_append, List.dropWhile_cons_of_pos space]
        exact later
  | @comment text more inside gap ih =>
      obtain ⟨later, -⟩ := ih
      have spelled (rest : Text) : '/' :: '*' :: (text ++ '*' :: '/' :: more) ++ rest =
          '/' :: '*' :: (text ++ '*' :: '/' :: (more ++ rest)) := by
        simp
      have read (rest : Text) :
          tokens ('/' :: '*' :: (text ++ '*' :: '/' :: more) ++ rest) =
            .comment text :: tokens (more ++ rest) := by
        rw [spelled]
        exact tokens_comment (more ++ rest) (closesComment_iff.mpr inside)
      have dark (rest : Text) :
          ('/' :: '*' :: (text ++ '*' :: '/' :: more) ++ rest).dropWhile isSpace =
            '/' :: '*' :: (text ++ '*' :: '/' :: more) ++ rest :=
        dropWhile_of_stops (stops_cons.mpr rfl)
      constructor
      · exact later.cons rfl fun rest _ => read rest
      · exact later.cons rfl fun rest _ => (congrArg tokens (dark rest)).trans (read rest)

/-- A gap is read as blanks. -/
theorem IsGap.tokens_eq {gap : Text} (isGap : IsGap gap) :
    ∃ blanks : List Token, (∀ t ∈ blanks, t.isBlank = true) ∧
      ∀ rest, Stops isSpace rest → tokens (gap ++ rest) = blanks ++ tokens rest :=
  isGap.finds.1

/-- No number goes on with a gap. -/
theorem IsGap.stopsNumber {gap rest : Text} (isGap : IsGap gap)
    (stops : Stops continuesNumber rest) : Stops continuesNumber (gap ++ rest) := by
  cases isGap with
  | nil => exact stops
  | @space c more space gap =>
      simp only [isSpace, isNewline, Bool.or_eq_true, beq_iff_eq] at space
      rcases space with (rfl | rfl) | (rfl | rfl) | rfl
      all_goals rfl
  | comment inside gap => rfl

/-- Blanks become leaves of the innermost block. -/
theorem forms_blanks {s rest : Text} {blanks : List Token} (blank : ∀ t ∈ blanks, t.isBlank = true)
    (read : tokens s = blanks ++ tokens rest) : Forms s rest (blanks.map Token.tree) := by
  have pushed {t : Token} (blank : t.isBlank = true) (blocks : List OpenBlock) (done : List Tree) :
      Nesting.push ⟨blocks, done⟩ t.bare = ⟨blocks, t.tree :: done⟩ := by
    have opens := Token.opens_of_isBlank blank
    cases blocks with
    | nil => simp [Nesting.push, opens, Token.tree]
    | cons inner outer =>
        have closes : t ≠ .closing inner.bracket := by
          rintro rfl
          cases blank
        simp [Nesting.push, opens, closes, Token.tree]
  refine ⟨blanks, read, fun blocks done _ => ?_⟩
  clear read
  induction blanks generalizing done with
  | nil => rfl
  | cons t more ih =>
      obtain ⟨first, others⟩ := List.forall_mem_cons.mp blank
      rw [List.map_cons, List.foldl_cons, pushed first, ih others]
      simp

/-- Blanks are blank trees. -/
theorem isBlank_trees {blanks : List Token} (blank : ∀ t ∈ blanks, t.isBlank = true) :
    ∀ t ∈ blanks.map Token.tree, t.isBlank = true := List.forall_mem_map.mpr blank

/-- A blank neither ends a declaration nor its value. -/
theorem calm_of_isBlank {t : Token} (blank : t.isBlank = true) :
    t.tree.token ≠ .semicolon ∧ t.tree.isBang = false := by
  have other {u : Token} (dark : u.isBlank = false) : t ≠ u := by
    intro same
    rw [same, dark] at blank
    cases blank
  exact ⟨other rfl, beq_eq_false_iff_ne.mpr (other rfl)⟩

/-!
### Loosely spelled numbers
-/

/-- A component of a colour: digits below a million, with a gap on either side. -/
structure LooseNumber where
  before : Text
  digits : Text
  after : Text
  opened : IsGap before
  run : IsDigitRun digits
  small : digitsValue digits < 10 ^ 6
  closed : IsGap after

namespace LooseNumber

/-- The component as it stands in its colour. -/
def text (c : LooseNumber) : Text := c.before ++ c.digits ++ c.after

/-- The component without its gaps and its leading zeros. -/
def plain (c : LooseNumber) : Text := natural (digitsValue c.digits)

/-- The number of the component, with blanks around it. -/
def IsRead (c : LooseNumber) (ts : List Token) : Prop :=
  ∃ before after : List Token, (∀ t ∈ before, t.isBlank = true) ∧
    (∀ t ∈ after, t.isBlank = true) ∧
    ts = before ++ .number (digitsNumeral c.digits) :: after

/-- A component is read up to the mark behind it, whatever stands there. -/
theorem reads (c : LooseNumber) :
    ∃ ts, c.IsRead ts ∧ ∀ rest, Stops isSpace rest → Stops continuesNumber rest →
      tokens (c.text ++ rest) = ts ++ tokens rest := by
  obtain ⟨before, opened, first⟩ := c.opened.tokens_eq
  obtain ⟨after, closed, last⟩ := c.closed.tokens_eq
  refine ⟨_, ⟨before, after, opened, closed, rfl⟩, fun rest dark stops => ?_⟩
  rw [text, List.append_assoc, List.append_assoc, first _ (c.run.stopsSpace _),
    tokens_digits c.run.1 c.run.2 (c.closed.stopsNumber stops), last rest dark, List.append_assoc,
    List.cons_append]

/-- Between a comma or the bracket in front and a comma or the bracket behind, a component is
written without its gaps and its leading zeros. -/
theorem writes {c : LooseNumber} {ts : List Token} (read : c.IsRead ts) {us : List Tree}
    {out : Text} (next : ∀ t ∈ us.head?, t.isComma = true)
    (later : writeTrees true true false true us = .ok out) (gap begun : Bool)
    (due : (gap || begun) = gap) :
    writeTrees true true gap begun (ts.map Token.tree ++ us) =
      .ok ((if gap then [' '] else []) ++ c.plain ++ out) := by
  obtain ⟨before, after, opened, closed, rfl⟩ := read
  have number : (Token.number (digitsNumeral c.digits)).tree.write true = .ok c.plain :=
    write_digits c.small
  have behind : writeTrees true true false true (after.map Token.tree ++ us) = .ok out := by
    rw [writeTrees_blank_comma (isBlank_trees closed) next false false true true, later]
  rw [List.map_append, List.append_assoc, List.map_cons, List.cons_append,
    writeTrees_blank_append (isBlank_trees opened) (by simpa using due)]
  exact writeTrees_cons rfl rfl number gap begun behind

/-- No token of a component is a bracket. -/
theorem leaves {c : LooseNumber} {ts : List Token} (read : c.IsRead ts) :
    ∀ t ∈ ts, t.opens? = none ∧ t ≠ .closing .round := by
  obtain ⟨before, after, opened, closed, rfl⟩ := read
  have blank {t : Token} (blank : t.isBlank = true) : t.opens? = none ∧ t ≠ .closing .round := by
    refine ⟨Token.opens_of_isBlank blank, ?_⟩
    rintro rfl
    cases blank
  rw [List.forall_mem_append, List.forall_mem_cons]
  exact ⟨fun t member => blank (opened t member), ⟨rfl, by simp⟩,
    fun t member => blank (closed t member)⟩

end LooseNumber

/-!
### Colours
-/

/-- A colour with decimal components, loosely spelled. -/
structure LooseColour where
  lead : Text
  red : LooseNumber
  green : LooseNumber
  blue : LooseNumber
  tail : Text
  opened : IsGap lead
  closed : IsGap tail

namespace LooseColour

/-- The colour as it is spelled. -/
def text (c : LooseColour) : Text :=
  c.lead ++ ("rgb(".toList ++ (c.red.text ++ ',' ::
    (c.green.text ++ ',' :: (c.blue.text ++ ')' :: c.tail))))

/-- The literal of the colour: without gaps, without leading zeros and with a space behind each
comma. -/
def literal (c : LooseColour) : Text := rgbText c.red.plain c.green.plain c.blue.plain

/-- The arguments of a colour are written as those of its literal. -/
theorem writes {c : LooseColour} {r g b : List Token} (red : c.red.IsRead r)
    (green : c.green.IsRead g) (blue : c.blue.IsRead b) :
    writeTrees true true false false ((r ++ .comma :: (g ++ .comma :: b)).map Token.tree) =
      .ok (c.red.plain ++ ',' :: ' ' :: (c.green.plain ++ ',' :: ' ' :: c.blue.plain)) := by
  have comma {us : List Tree} {out : Text}
      (later : writeTrees true true true true us = .ok out) :
      writeTrees true true false true (Token.comma.tree :: us) = .ok (',' :: out) := by
    have isComma : Token.comma.tree.isComma = true := rfl
    have dark : Token.comma.tree.isBlank = false := rfl
    rw [writeTrees, dark, isComma, later]
    rfl
  have next {us : List Tree} : ∀ t ∈ (Token.comma.tree :: us).head?, t.isComma = true := by
    rintro t ⟨⟩
    rfl
  have none : ∀ t ∈ ([] : List Tree).head?, t.isComma = true := nofun
  have third := LooseNumber.writes blue none rfl true true rfl
  have second := LooseNumber.writes green next (comma third) true true rfl
  have first := LooseNumber.writes red next (comma second) false false rfl
  simpa using first

/-- The arguments of a colour hold no bracket. -/
theorem leaves {c : LooseColour} {r g b : List Token} (red : c.red.IsRead r)
    (green : c.green.IsRead g) (blue : c.blue.IsRead b) :
    ∀ t ∈ r ++ .comma :: (g ++ .comma :: b), t.opens? = none ∧ t ≠ .closing .round := by
  have comma : Token.comma.opens? = none ∧ Token.comma ≠ .closing .round := ⟨rfl, by simp⟩
  simp only [List.forall_mem_append, List.forall_mem_cons]
  exact ⟨LooseNumber.leaves red, comma, LooseNumber.leaves green, comma, LooseNumber.leaves blue⟩

/-- A loosely spelled colour is read as trees that are written as its literal. -/
theorem reads (c : LooseColour) :
    ∃ ts : List Tree, (∀ rest, Stops isSpace rest → Forms (c.text ++ rest) rest ts) ∧
      (∀ t ∈ ts, t.token ≠ .semicolon ∧ t.isBang = false) ∧ writeValue true ts = .ok c.literal := by
  have rgb : IsName "rgb".toList := by decide
  have other : lowercase "rgb".toList ≠ "url".toList := by decide
  obtain ⟨lead, opened, leadTokens⟩ := c.opened.tokens_eq
  obtain ⟨tail, closed, tailTokens⟩ := c.closed.tokens_eq
  obtain ⟨r, red, redTokens⟩ := c.red.reads
  obtain ⟨g, green, greenTokens⟩ := c.green.reads
  obtain ⟨b, blue, blueTokens⟩ := c.blue.reads
  refine ⟨lead.map Token.tree ++ (call "rgb".toList (r ++ .comma :: (g ++ .comma :: b)) ::
    tail.map Token.tree), fun rest dark => ?_, ?_, ?_⟩
  · have spelled : c.text ++ rest = c.lead ++ ("rgb".toList ++ '(' :: (c.red.text ++ ',' ::
        (c.green.text ++ ',' :: (c.blue.text ++ ')' :: (c.tail ++ rest))))) := by
      simp [text]
    rw [spelled]
    have front := forms_blanks opened (leadTokens ("rgb".toList ++ '(' :: (c.red.text ++ ',' ::
      (c.green.text ++ ',' :: (c.blue.text ++ ')' :: (c.tail ++ rest))))) rfl)
    have back := forms_blanks closed (tailTokens rest dark)
    refine front.trans (Forms.trans (Forms.function ?_ (leaves red green blue)) back)
    have dark {c : Char} (mark : isSpace c = false) (s : Text) : Stops isSpace (c :: s) :=
      stops_cons.mpr mark
    have stops {c : Char} (mark : continuesNumber c = false) (s : Text) :
        Stops continuesNumber (c :: s) := stops_cons.mpr mark
    rw [tokens_function rgb other, redTokens _ (dark rfl _) (stops rfl _), tokens_comma,
      greenTokens _ (dark rfl _) (stops rfl _), tokens_comma,
      blueTokens _ (dark rfl _) (stops rfl _), tokens_closeRound]
    simp
  · have calm {blanks : List Token} (blank : ∀ t ∈ blanks, t.isBlank = true) :
        ∀ t ∈ blanks.map Token.tree, t.token ≠ .semicolon ∧ t.isBang = false :=
      List.forall_mem_map.mpr fun t member => calm_of_isBlank (blank t member)
    rw [List.forall_mem_append, List.forall_mem_cons]
    exact ⟨calm opened, ⟨by simp [call, Tree.token, Tree.first], rfl⟩, calm closed⟩
  · have spelled : c.literal = "rgb".toList ++ '(' :: (c.red.plain ++ ',' :: ' ' ::
        (c.green.plain ++ ',' :: ' ' :: c.blue.plain) ++ [')']) := by
      delta literal rgbText
      simp
    have behind : writeTrees true false false true (tail.map Token.tree) = .ok [] := by
      have loose : (false && !true) = false := rfl
      exact writeTrees_append_blank loose (isBlank_trees closed) false true []
    rw [writeValue, writeTrees_blank_append (isBlank_trees opened) rfl,
      writeTrees_cons rfl rfl (write_call rgb (writes red green blue)) false false behind, spelled]
    simp

end LooseColour

end Swatch
