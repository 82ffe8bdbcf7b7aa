/-
Module: Swatch.Proofs.Meaning
Purpose: A value in its normal spelling is read as the same nested tokens, where none of its tokens
  is changed by being printed, and none fuses with what follows it.
Main exports:
  Portion, Faithful, faithful_spell, exists_normalizeValue_iff, normalizeValue_portion,
  meaning_normalizeValue
-/
import Swatch.Proofs.Behind
import Swatch.Proofs.Pieces

namespace Swatch

/-!
### White space in print
-/

/-- A space before a text adds nothing that counts. -/
theorem significant_space (r : Text) :
    significant (tokens (' ' :: r)) = significant (tokens r) := by
  rw [tokens_space r rfl]
  cases r with
  | nil => rfl
  | cons c s =>
      cases space : isSpace c with
      | true =>
          rw [List.dropWhile_cons_of_pos space, tokens_space s space]
      | false =>
          rw [List.dropWhile_cons_of_neg (by simp [space])]
          rfl

theorem significant_gap (gap : Bool) (r : Text) :
    significant (tokens ((if gap then [' '] else []) ++ r)) = significant (tokens r) := by
  cases gap with
  | true => exact significant_space r
  | false => rfl

/-- What holds of the empty text, and of every text if it holds of what its first token leaves,
holds of all texts. -/
@[elab_as_elim]
theorem scan_induction {motive : Text → Prop} (nil : motive [])
    (cons : ∀ c s, motive (s.drop (scan c s).2) → motive (c :: s)) : ∀ s, motive s
  | [] => nil
  | c :: s => cons c s (scan_induction nil cons (s.drop (scan c s).2))
termination_by s => s.length
decreasing_by
  simp only [List.length_drop, List.length_cons]
  omega

/-!
### Addresses
-/

/-- No address is read where a quoted one stands. -/
theorem readUrl_quoted {s : Text} :
    readUrl s = none ↔ (s.dropWhile isSpace).head? = some '"' ∨
      (s.dropWhile isSpace).head? = some '\'' := by
  rw [readUrl]
  split
  next quote => simpa using quote
  next other =>
    split <;> simp [other]

/-- The call of a function named like an address has a quote behind its bracket. -/
theorem readUrl_of_scan {c : Char} {s name : Text} (call : (scan c s).1 = .function name)
    (named : lowercase name = "url".toList) : readUrl (s.drop (scan c s).2) = none := by
  have kind := scanned_scan c s
  generalize (scan c s).1 = t at kind call
  generalize (scan c s).2 = taken at kind
  cases kind with
  | number starts =>
      rw [readNumeric] at call
      dsimp only at call
      split at call
      next => cases call
      next => split at call <;> cases call
  | mark =>
      rw [readPunctuation.eq_def] at call
      split at call
      all_goals try cases call
      split at call <;> cases call
  | word number starts =>
      rw [← List.drop_cons (readWord_pos (startsName_of_startsWord starts))]
      rcases readWord_cases (c :: s) with
        ⟨value, read, -⟩ | ⟨contents, read⟩ | ⟨read, address⟩ | ⟨read, -⟩
      · rw [read] at call
        cases call
      · rw [read] at call
        cases call
      · rw [read] at call ⊢
        cases call
        exact address named
      · rw [read] at call
        cases call
  | _ => cases call

/-!
### Portions

A value is a part of a sheet, so what is spelled is as a rule not the whole text.
-/

/-- The tokens `front` are the first of a text, up to where the blocks of `stack` and all others
are closed, or to the end of the text. -/
def Portion (stack : List Bracket) (s : Text) (front : List Token) : Prop :=
  ∃ behind, tokens s = front ++ behind ∧ (leftOpen stack front = [] ∨ behind = [])

theorem portion_tokens (s : Text) : Portion [] s (tokens s) :=
  ⟨[], (List.append_nil _).symm, .inr rfl⟩

theorem Portion.eq_nil {stack : List Bracket} {front : List Token}
    (portion : Portion stack [] front) : front = [] := by
  obtain ⟨behind, cut, -⟩ := portion
  rw [tokens_nil] at cut
  exact (List.append_eq_nil_iff.mp cut.symm).1

/-- A portion is empty, or starts with the first token and goes on behind it. -/
theorem Portion.cases {stack : List Bracket} {c : Char} {s : Text} {front : List Token}
    (portion : Portion stack (c :: s) front) :
    stack = [] ∧ front = [] ∨ ∃ later, front = (scan c s).1 :: later ∧
      Portion ((scan c s).1.leaves stack) (s.drop (scan c s).2) later := by
  obtain ⟨behind, cut, complete⟩ := portion
  rw [tokens_cons] at cut
  cases front with
  | nil =>
      rcases complete with closed | rfl
      · exact .inl ⟨closed, rfl⟩
      · cases cut
  | cons t later =>
      obtain ⟨first, more⟩ := List.cons.inj cut
      subst first
      exact .inr ⟨later, rfl, behind, more, complete⟩

/-- Inside a block a portion is not empty. -/
theorem Portion.inside {bracket : Bracket} {outer : List Bracket} {c : Char} {s : Text}
    {front : List Token} (portion : Portion (bracket :: outer) (c :: s) front) :
    ∃ later, front = (scan c s).1 :: later ∧
      Portion ((scan c s).1.leaves (bracket :: outer)) (s.drop (scan c s).2) later := by
  rcases portion.cases with ⟨closed, -⟩ | filled
  · cases closed
  · exact filled

/-!
### Reading back

The pieces of a source text are spelled from the first on, while their spelling is read back from
the last on: a token ends where the text printed behind it does not go on with it.  So the
induction is on the source, and carries with what is read back how the printed text starts.
-/

section Reading

variable {commas : Bool}

/-- What is read back of the first tokens of a text that were spelled behind open blocks, how their
spelling starts, and that it is spelled in the same way again, behind a space that it may or may not
start with. -/
structure Faithful (commas gap begun : Bool) (stack : List Bracket) (s : Text)
    (front : List Token) : Prop where
  back : List.Forall₂ Token.Twin
    (significant (tokens (spell commas gap begun (arrange stack front))))
    (significant ((arrange stack front).map Piece.token))
  follows : begun = true → gap = false → Follows s (spell commas gap begun (arrange stack front))
  apart : gap = true → IsApart (spell commas gap begun (arrange stack front))
  again : (gap = true → begun = true) → ∀ due, (due = true → gap = true) →
    spell commas due begun (arrange stack (tokens (spell commas gap begun (arrange stack front)))) =
      spell commas gap begun (arrange stack front)

/-- Where all blocks are closed, what is printed is set apart. -/
theorem isApart_spell_closed (gap begun : Bool) (stack : List Bracket) :
    IsApart (spell commas gap begun (arrange stack [])) := by
  cases stack with
  | nil => rfl
  | cons bracket outer =>
      rw [arrange, List.map_cons, spell_cons rfl (by simp)]
      cases due : gap && !(commas && Role.closes == Role.closes) with
      | true => rfl
      | false => cases bracket <;> rfl

theorem tokens_closeChar (bracket : Bracket) (r : Text) :
    tokens (bracket.closeChar :: r) = .closing bracket :: tokens r := by
  cases bracket <;> exact tokens_mark rfl

/-- A space in front of a text is a token of its own where the text starts with another one. -/
theorem tokens_space_of_dark {r : Text} {t : Token} {ts : List Token} (read : tokens r = t :: ts)
    (dark : t.isBlank = false) : tokens (' ' :: r) = .whitespace :: tokens r := by
  cases r with
  | nil => rw [tokens_space [] rfl, List.dropWhile_nil]
  | cons c r =>
      cases space : isSpace c with
      | true =>
          rw [tokens_space r space] at read
          rw [← (List.cons.inj read).1] at dark
          cases dark
      | false =>
          rw [tokens_space _ rfl, List.dropWhile_cons_of_neg (by simp [space])]

/-- The first piece is spelled as its twin was, and what follows it as before. -/
theorem spell_twin {gap due begun : Bool} {stack : List Bracket} {t u : Token} {r : Text}
    (twin : u.Twin t) (dark : t.isBlank = false) (read : tokens (t.text ++ r) = u :: tokens r)
    (begins : gap = true → begun = true) (before : due = true → gap = true)
    (later : spell commas (commas && t == .comma) (!(commas && t.role stack == .opens))
      (arrange (t.leaves stack) (tokens r)) = r) :
    spell commas due begun (arrange stack (tokens
        ((if gap && !(commas && Piece.swallows ⟨t.role stack, t⟩) then [' '] else []) ++
          (t.text ++ r)))) =
      (if gap && !(commas && Piece.swallows ⟨t.role stack, t⟩) then [' '] else []) ++
        (t.text ++ r) := by
  have role := twin.role_eq stack
  have comma : (u == .comma) = (t == .comma) := by
    rw [Bool.eq_iff_iff, beq_iff_eq, beq_iff_eq]
    exact twin.comma
  have swallows : Piece.swallows ⟨u.role stack, u⟩ = Piece.swallows ⟨t.role stack, t⟩ := by
    rw [Piece.swallows, Piece.swallows, role, comma]
  have first (due begun : Bool) : spell commas due begun (arrange stack (u :: tokens r)) =
      (if due && !(commas && Piece.swallows ⟨t.role stack, t⟩) then [' '] else []) ++
        (t.text ++ r) := by
    rw [arrange, spell, if_neg (by rw [twin.blank, dark]; exact Bool.false_ne_true), swallows,
      comma, role, twin.leaves_eq, later, twin.text, List.append_assoc]
  cases spaced : gap && !(commas && Piece.swallows ⟨t.role stack, t⟩) with
  | true =>
      obtain ⟨rfl, alone⟩ := (Bool.and_eq_true _ _).mp spaced
      have dark := twin.blank.trans dark
      rw [if_pos rfl, List.singleton_append, tokens_space_of_dark read dark, arrange,
        Token.leaves_of_isBlank rfl, spell_blank rfl, begins rfl, Bool.or_true, read, first, alone]
      rfl
  | false =>
      have tight : (due && !(commas && Piece.swallows ⟨t.role stack, t⟩)) = false := by
        cases due with
        | false => rfl
        | true => rw [← spaced, before rfl]
      rw [if_neg Bool.false_ne_true, List.nil_append, read, first, tight]
      rfl

/-- The end of a portion closes all blocks. -/
theorem faithful_nil (gap begun : Bool) (stack : List Bracket) (s : Text) :
    Faithful commas gap begun stack s [] where
  back := by
    induction stack generalizing gap begun with
    | nil =>
        rw [arrange, List.map_nil, spell, tokens_nil]
        exact .nil
    | cons bracket outer ih =>
        have opened : arrange (bracket :: outer) [] =
            ⟨.closes, .closing bracket⟩ :: arrange outer [] := rfl
        rw [opened, spell_cons rfl (by simp), List.append_assoc, significant_gap, Token.text,
          List.singleton_append, tokens_closeChar, List.map_cons, significant_dark rfl,
          significant_dark rfl]
        exact .cons (.refl _) (ih _ _)
  follows := fun _ _ => .apart (isApart_spell_closed gap begun stack)
  apart := fun _ => isApart_spell_closed gap begun stack
  again := by
    induction stack generalizing gap begun with
    | nil =>
        intro _ due _
        rw [arrange, List.map_nil, spell, tokens_nil, arrange, List.map_nil, spell]
    | cons bracket outer ih =>
        intro begins due before
        obtain ⟨role, leaves⟩ := leaves_closing bracket outer
        have opened : arrange (bracket :: outer) [] =
            ⟨(Token.closing bracket).role (bracket :: outer), .closing bracket⟩ ::
              arrange outer [] := by
          rw [role]
          rfl
        have dark : ¬(Token.closing bracket).isBlank = true := Bool.false_ne_true
        rw [opened, spell, if_neg dark, List.append_assoc]
        refine spell_twin (.refl _) rfl (tokens_closeChar bracket _) begins before ?_
        have comma : (commas && Token.closing bracket == .comma) = false := by simp
        have none {p : Prop} (due : false = true) : p := absurd due Bool.false_ne_true
        rw [leaves, comma]
        exact ih false _ none false none

/-- A blank token makes a space due. -/
theorem faithful_blank {gap begun : Bool} {stack : List Bracket} {c : Char} {s : Text}
    {front : List Token} (blank : (scan c s).1.isBlank = true)
    (later : Faithful commas (gap || begun) begun stack (s.drop (scan c s).2) front) :
    Faithful commas gap begun stack (c :: s) ((scan c s).1 :: front) := by
  obtain ⟨back, -, apart, again⟩ := later
  have spelled : spell commas gap begun (arrange stack ((scan c s).1 :: front)) =
      spell commas (gap || begun) begun (arrange stack front) := by
    rw [arrange, Token.leaves_of_isBlank blank, spell_blank blank]
  refine ⟨?_, fun counts _ => ?_, fun due => ?_, fun begins due before => ?_⟩
  · rw [spelled, arrange, Token.leaves_of_isBlank blank]
    rw [List.map_cons, significant_blank blank]
    exact back
  · rw [spelled]
    exact .apart (apart (by simp [counts]))
  · rw [spelled]
    exact apart (by simp [due])
  · rw [spelled]
    refine again (fun due => ?_) due (fun counts => by rw [before counts, Bool.true_or])
    rcases (Bool.or_eq_true _ _).mp due with gap | begun
    · exact begins gap
    · exact begun

/-- A quote in the source is one in print. -/
theorem spell_quote {q : Char} (quote : q = '"' ∨ q = '\'') {s : Text} {front : List Token}
    {bracket : Bracket} {outer : List Bracket} (portion : Portion (bracket :: outer) (q :: s) front)
    (whole : ∀ t ∈ front, t.isBroken = false) (gap begun : Bool) :
    ∃ more, spell commas gap begun (arrange (bracket :: outer) front) =
      (if gap then [' '] else []) ++ '"' :: more := by
  obtain ⟨later, rfl, -⟩ := portion.inside
  have first : ∃ value, (scan q s).1 = .string value := by
    have unbroken := whole _ List.mem_cons_self
    have space : ¬isSpace q = true := by
      rcases quote with rfl | rfl <;> decide
    rw [scan, if_neg space, if_pos quote] at unbroken ⊢
    cases read : readString q s with
    | mk found taken =>
        obtain ⟨value, broken⟩ := found
        rw [read] at unbroken
        cases broken with
        | false => exact ⟨value, rfl⟩
        | true => cases unbroken
  obtain ⟨value, first⟩ := first
  have role : (Token.string value).role (bracket :: outer) = .inside := rfl
  have closes : (Role.inside == .closes) = false := rfl
  have text : (Token.string value).text = '"' :: (value.flatMap stringCharText ++ ['"']) := rfl
  rw [first, arrange, role, spell_cons rfl (by simp), closes, text, Bool.and_false,
    Bool.not_false, Bool.and_true, List.append_assoc]
  exact ⟨_, rfl⟩

/-- A quoted address stays quoted. -/
theorem readUrl_spell {s : Text} (quoted : readUrl s = none) {front : List Token}
    {bracket : Bracket} {outer : List Bracket} (portion : Portion (bracket :: outer) s front)
    (whole : ∀ t ∈ front, t.isBroken = false) (begun : Bool) :
    readUrl (spell commas false begun (arrange (bracket :: outer) front)) = none := by
  obtain ⟨q, rest, quote, left⟩ : ∃ q rest, (q = '"' ∨ q = '\'') ∧
      s.dropWhile isSpace = q :: rest := by
    rcases readUrl_quoted.mp quoted with first | first
    · obtain ⟨rest, left⟩ := List.head?_eq_some_iff.mp first
      exact ⟨'"', rest, .inl rfl, left⟩
    · obtain ⟨rest, left⟩ := List.head?_eq_some_iff.mp first
      exact ⟨'\'', rest, .inr rfl, left⟩
  obtain ⟨gap, more, spelled⟩ : ∃ gap : Bool, ∃ more,
      spell commas false begun (arrange (bracket :: outer) front) =
        (if gap then [' '] else []) ++ '"' :: more := by
    cases s with
    | nil => cases left
    | cons c s =>
        cases space : isSpace c with
        | true =>
            rw [List.dropWhile_cons_of_pos space] at left
            obtain ⟨later, rfl, behind⟩ := portion.inside
            have scanned : scan c s = (.whitespace, (s.takeWhile isSpace).length) := by
              rw [scan, if_pos space]
            rw [scanned, drop_length_takeWhile, left, Token.leaves_of_isBlank rfl] at behind
            rw [scanned, arrange, Token.leaves_of_isBlank rfl, spell_blank rfl]
            exact ⟨_, spell_quote quote behind (List.forall_mem_cons.mp whole).2 _ _⟩
        | false =>
            rw [List.dropWhile_cons_of_neg (by simp [space])] at left
            rw [left] at portion
            exact ⟨false, spell_quote quote portion whole false begun⟩
  rw [spelled, readUrl_quoted]
  cases gap with
  | true => exact .inl rfl
  | false => exact .inl rfl

/-- A comma and the end of a block set apart what they start. -/
theorem isApart_of_swallows {stack : List Bracket} {t : Token}
    (swallows : Piece.swallows ⟨t.role stack, t⟩ = true) (r : Text) : IsApart (t.text ++ r) := by
  rw [Piece.swallows, Bool.or_eq_true, beq_iff_eq, beq_iff_eq] at swallows
  rcases swallows with comma | closes
  · have token : t = .comma := comma
    rw [token]
    rfl
  · have role : t.role stack = .closes := closes
    rw [Token.role] at role
    split at role
    next => cases role
    next =>
      split at role
      next closing =>
        rw [Token.closes, Option.any_eq_true] at closing
        obtain ⟨bracket, -, same⟩ := closing
        rw [eq_of_beq same]
        cases bracket <;> rfl
      next => cases role

/-- A token that counts is printed behind the space that is due, and what follows it behind it. -/
theorem faithful_dark {gap begun : Bool} {stack : List Bracket} {c : Char} {s : Text}
    {front : List Token} (fit : Fit c s)
    (portion : Portion ((scan c s).1.leaves stack) (s.drop (scan c s).2) front)
    (later : ∀ gap begun, Faithful commas gap begun ((scan c s).1.leaves stack)
      (s.drop (scan c s).2) front)
    (whole : ∀ t ∈ front, t.isBroken = false) :
    Faithful commas gap begun stack (c :: s) ((scan c s).1 :: front) := by
  obtain ⟨back, follows, edge, again⟩ := later (commas && (scan c s).1 == .comma)
    (!(commas && (scan c s).1.role stack == .opens))
  generalize left : spell commas (commas && (scan c s).1 == .comma)
    (!(commas && (scan c s).1.role stack == .opens))
    (arrange ((scan c s).1.leaves stack) front) = r at back follows edge again
  -- a comma with its space sets the next token apart, any other stands right before it
  have next (opens : (scan c s).1.opens? = none) : Follows (s.drop (scan c s).2) r := by
    cases due : commas && (scan c s).1 == .comma with
    | true => exact .apart (edge due)
    | false =>
        have role : ((scan c s).1.role stack == .opens) = false := by
          rw [Token.role, opens, Option.isSome_none, if_neg Bool.false_ne_true]
          split <;> rfl
        exact follows (by rw [role, Bool.and_false]; rfl) due
  have address (name : Text) (call : (scan c s).1 = .function name)
      (named : lowercase name = "url".toList) : readUrl r = none := by
    have plain : (commas && (scan c s).1 == .comma) = false := by
      rw [call]
      exact Bool.and_false _
    have opens : (scan c s).1.leaves stack = .round :: stack := by rw [call]; rfl
    rw [← left, plain, opens]
    rw [opens] at portion
    exact readUrl_spell (readUrl_of_scan call named) portion whole _
  have ends := ends_scan fit.settled fit.single next address
  obtain ⟨u, twin, read⟩ := tokens_text (sound_scan c s) fit.settled fit.dark fit.whole ends
  have spelled : spell commas gap begun (arrange stack ((scan c s).1 :: front)) =
      (if gap && !(commas && Piece.swallows ⟨(scan c s).1.role stack, (scan c s).1⟩)
        then [' '] else []) ++ ((scan c s).1.text ++ r) := by
    rw [arrange, spell, if_neg (by rw [fit.dark]; exact Bool.false_ne_true), left,
      List.append_assoc]
  refine ⟨?_, fun _ due => ?_, fun due => ?_, fun begins due before => ?_⟩
  · rw [spelled, significant_gap, read, significant_dark (twin.blank.trans fit.dark),
      arrange, List.map_cons, significant_dark fit.dark]
    exact .cons twin back
  · rw [spelled, due, Bool.false_and]
    exact .token fit next
  · rw [spelled, due, Bool.true_and]
    cases swallows : commas && Piece.swallows ⟨(scan c s).1.role stack, (scan c s).1⟩ with
    | false => rfl
    | true =>
        rw [Bool.and_eq_true] at swallows
        exact isApart_of_swallows swallows.2 r
  · rw [spelled]
    refine spell_twin twin fit.dark read begins before (again (fun due => ?_) _ id)
    rw [Bool.and_eq_true, beq_iff_eq] at due
    have role : ((scan c s).1.role stack == .opens) = false := by
      rw [due.2]
      cases stack <;> rfl
    rw [role, Bool.and_false]
    rfl

/-- Where no token is changed and none fuses with what follows it, the pieces of a portion are
read back. -/
theorem faithful_spell (commas : Bool) {s : Text} {front : List Token}
    (apart : separate (tokens s) = true) (whole : ∀ t ∈ front, t.isBroken = false)
    (gap begun : Bool) {stack : List Bracket} (portion : Portion stack s front) :
    Faithful commas gap begun stack s front := by
  induction s using scan_induction generalizing gap begun stack front with
  | nil =>
      rw [portion.eq_nil]
      exact faithful_nil gap begun stack []
  | cons c s ih =>
      rw [tokens_cons] at apart
      rw [separate, Bool.and_eq_true, Bool.and_eq_true, Bool.not_eq_true'] at apart
      obtain ⟨⟨settled, single⟩, others⟩ := apart
      rcases portion.cases with ⟨-, rfl⟩ | ⟨front, rfl, later⟩
      · exact faithful_nil gap begun stack (c :: s)
      · obtain ⟨first, more⟩ := List.forall_mem_cons.mp whole
        cases blank : (scan c s).1.isBlank with
        | true =>
            rw [Token.leaves_of_isBlank blank] at later
            exact faithful_blank blank (ih others more _ _ later)
        | false =>
            exact faithful_dark ⟨blank, first, settled, single⟩ later
              (fun _ _ => ih others more _ _ later) more

end Reading

/-!
### The result
-/

/-- A value has a normal spelling as long as none of its strings and addresses is broken. -/
theorem exists_normalizeValue_iff {commas : Bool} {v : Text} :
    (∃ w, normalizeValue commas v = .ok w) ↔ ∀ t ∈ tokens v, t.isBroken = false := by
  rw [← whole_arrange_iff [], ← piecesAll_trees]
  constructor
  · rintro ⟨w, written⟩
    exact (writeValue_spell (holdsAll_trees fun _ _ => trivial) written).1
  · exact exists_writeTrees false false false

/-- The normal spelling of a value is that of its pieces. -/
theorem spell_of_normalizeValue {commas : Bool} {v w : Text}
    (written : normalizeValue commas v = .ok w) :
    spell commas false false (arrange [] (tokens v)) = w := by
  rw [← piecesAll_trees]
  exact (writeValue_spell (holdsAll_trees fun _ _ => trivial) written).2

/-- The spelling of a portion is its own normal spelling, where no token is changed by being printed
and none fuses with what follows it. -/
theorem normalizeValue_portion {commas : Bool} {s : Text} {front : List Token}
    (apart : separate (tokens s) = true) (whole : ∀ t ∈ front, t.isBroken = false)
    (portion : Portion [] s front) :
    normalizeValue commas (spell commas false false (arrange [] front)) =
      .ok (spell commas false false (arrange [] front)) := by
  have faithful := faithful_spell commas apart whole false false portion
  have unbroken : ∀ t ∈ tokens (spell commas false false (arrange [] front)),
      t.isBroken = false := by
    rw [← whole_significant_iff, whole_iff_of_twins faithful.back, whole_significant_iff,
      List.forall_mem_map]
    exact (whole_arrange_iff [] front).mpr whole
  obtain ⟨w, written⟩ := exists_normalizeValue_iff.mpr unbroken
  have again := faithful.again nofun false nofun
  rw [spell_of_normalizeValue written] at again
  rw [written, again]

/-- A value has a normal spelling as long as none of its strings and addresses is broken, and it
means the same in it, where no token is changed by being printed and none fuses with what follows
it. -/
theorem meaning_normalizeValue {commas : Bool} {v : Text} (apart : separate (tokens v) = true) :
    ((∃ w, normalizeValue commas v = .ok w) ↔ ∀ t ∈ tokens v, t.isBroken = false) ∧
      ∀ w, normalizeValue commas v = .ok w → meaning w = meaning v := by
  refine ⟨exists_normalizeValue_iff, fun w written => ?_⟩
  -- the tokens of `w` are twins of the pieces of `v`, with all blocks closed
  have whole := exists_normalizeValue_iff.mp ⟨w, written⟩
  have read := (faithful_spell commas apart whole false false (portion_tokens v)).back
  rw [spell_of_normalizeValue written] at read
  apply marksAll_injective
  rw [marksAll_meaning, marksAll_meaning, ← marks_arrange_significant, marks_arrange_twins read,
    marks_arrange_significant, arrange_closed]

/-- A value with blocks, a quoted address, a comment and an escape. -/
def looseValue : Text := "calc( 1px+.5em ),url( 'x' )/**/#FFF a\\62 c".toList

/-- It means the same in its normal spelling. -/
theorem meaning_normalizeValue_looseValue :
    normalizeValue true looseValue = .ok "calc(1px+0.5em), url(\"x\") #FFF abc".toList ∧
      separate (tokens looseValue) = true ∧
      meaning "calc(1px+0.5em), url(\"x\") #FFF abc".toList = meaning looseValue := by
  have written : normalizeValue true looseValue =
      .ok "calc(1px+0.5em), url(\"x\") #FFF abc".toList :=
    toOption_eq_some.mp (by decide +kernel)
  have apart : separate (tokens looseValue) = true := by decide +kernel
  exact ⟨written, apart, (meaning_normalizeValue apart).2 _ written⟩

/-- Values with their normal spelling, one for each way in which tokens that stand apart do not
stay so: a token that takes the digit before a point, a mark that is put together, a number that is
rounded again, a unit that becomes an exponent, a backslash that hides what follows it, and a number
without a value. -/
def fusingValues : List (Text × Text) :=
  [("b.5".toList, "b0.5".toList), ("@b.5".toList, "@b0.5".toList),
    ("#b.5".toList, "#b0.5".toList), ("#1.5".toList, "#10.5".toList),
    ("1e22.5".toList, "1e220.5".toList), ("1px.5".toList, "1px0.5".toList),
    ("#.5".toList, "#0.5".toList), ("..5".toList, ".0.5".toList),
    ("-\\->".toList, "-->".toList), ("<!\\--".toList, "<!--".toList),
    ("9.999999e21".toList, "10e21".toList), ("7806778e0%".toList, "7806780.0%".toList),
    ("1\\65 5".toList, "1e5".toList), ("a\\\nb".toList, "a\\ b".toList),
    ("0e309".toList, "5.10424e38".toList)]

/-- Their normal spelling does not mean what they mean. -/
theorem meaning_normalizeValue_fusingValues :
    (normalizeValue true "b.5".toList = .ok "b0.5".toList ∧
        meaning "b0.5".toList ≠ meaning "b.5".toList) ∧
      ∀ p ∈ fusingValues, normalizeValue true p.1 = .ok p.2 ∧ meaning p.2 ≠ meaning p.1 := by
  have checked : ∀ p ∈ fusingValues, (normalizeValue true p.1).toOption = some p.2 ∧
      Nested.marksAll (meaning p.2) ≠ Nested.marksAll (meaning p.1) := by
    decide +kernel
  have all (p : Text × Text) (member : p ∈ fusingValues) :
      normalizeValue true p.1 = .ok p.2 ∧ meaning p.2 ≠ meaning p.1 := by
    obtain ⟨written, other⟩ := checked p member
    exact ⟨toOption_eq_some.mp written, fun same => other (congrArg _ same)⟩
  exact ⟨all _ List.mem_cons_self, all⟩

end Swatch
