/-
Module: Swatch.Proofs.Lines
Purpose: What is written stands on one line.
Main exports:
  OneLine, Token.text_oneLine, writeTrees_oneLine, oneLine_of_parse, oneLine_of_respell
-/
import Swatch.Proofs.Origin
import Swatch.Proofs.Spelling

namespace Swatch

/-- A text without the character that ends a printed line. -/
def OneLine (w : Text) : Prop := '\n' ∉ w

instance (w : Text) : Decidable (OneLine w) := inferInstanceAs (Decidable (_ ∉ _))

section Texts

/-!
### The spelling of a token
-/

theorem oneLine_nil : OneLine [] := List.not_mem_nil

theorem oneLine_cons {c : Char} {w : Text} : OneLine (c :: w) ↔ c ≠ '\n' ∧ OneLine w := by
  simp [OneLine, eq_comm]

theorem oneLine_append {v w : Text} : OneLine (v ++ w) ↔ OneLine v ∧ OneLine w := by
  simp [OneLine]

/-- A text of one line is written character by character. -/
theorem oneLine_flatMap {f : Char → Text} (each : ∀ c, OneLine (f c)) (w : Text) :
    OneLine (w.flatMap f) := by
  intro member
  obtain ⟨c, -, inside⟩ := List.mem_flatMap.mp member
  exact each c inside

theorem oneLine_natural (n : Nat) : OneLine (natural n) := by
  intro member
  have digit : '\n'.isDigit = true :=
    Nat.isDigit_of_mem_toDigits (by decide) (by decide) member
  revert digit
  decide

theorem oneLine_integer (i : Int) : OneLine (integer i) := by
  rw [integer]
  split
  next => exact oneLine_cons.mpr ⟨by decide, oneLine_natural _⟩
  next => exact oneLine_natural _

/-- Only characters of the ASCII range are written with their code points. -/
theorem oneLine_hexEscape {c : Char} (ascii : c.toNat < 128) : OneLine (hexEscape c) := by
  have digits : ∀ n < 128, OneLine (hexadecimal n) := by decide
  exact oneLine_cons.mpr ⟨by decide, oneLine_append.mpr ⟨digits _ ascii, by decide⟩⟩

theorem toNat_lt_of_isControl {c : Char} (control : isControl c = true) : c.toNat < 128 := by
  simp only [isControl, Bool.or_eq_true, decide_eq_true_eq, beq_iff_eq] at control
  omega

theorem ne_newline_of_isControl {c : Char} (other : isControl c = false) : c ≠ '\n' := by
  rintro rfl
  revert other
  decide

theorem oneLine_nameCharText (c : Char) : OneLine (nameCharText c) := by
  rw [nameCharText]
  split
  next => decide
  split
  next plain =>
    have inside : c ≠ '\n' := by
      rintro rfl
      revert plain
      decide
    exact oneLine_cons.mpr ⟨inside, oneLine_nil⟩
  split
  next control => exact oneLine_hexEscape (toNat_lt_of_isControl control)
  next control =>
    have other := ne_newline_of_isControl (Bool.eq_false_iff.mpr control)
    exact oneLine_cons.mpr ⟨by decide, oneLine_cons.mpr ⟨other, oneLine_nil⟩⟩

theorem oneLine_nameText (name : Text) : OneLine (nameText name) :=
  oneLine_flatMap oneLine_nameCharText name

theorem oneLine_leadText (name : Text) : OneLine (leadText name) := by
  rw [leadText.eq_def]
  split
  next c rest =>
    split
    next digit =>
      rw [isDigit_iff] at digit
      exact oneLine_append.mpr ⟨oneLine_hexEscape (by omega), oneLine_nameText rest⟩
    next => exact oneLine_nameText (c :: rest)
  next => exact oneLine_nil

theorem oneLine_identText (name : Text) : OneLine (identText name) := by
  rw [identText.eq_def]
  split
  next rest =>
    exact oneLine_cons.mpr ⟨by decide, oneLine_cons.mpr ⟨by decide, oneLine_nameText rest⟩⟩
  next => decide
  next => exact oneLine_cons.mpr ⟨by decide, oneLine_leadText _⟩
  next => exact oneLine_leadText _

theorem oneLine_stringText (value : Text) : OneLine (stringText value) := by
  have each (c : Char) : OneLine (stringCharText c) := by
    rw [stringCharText]
    split
    next mark =>
      have other : c ≠ '\n' := by
        rintro rfl
        revert mark
        decide
      exact oneLine_cons.mpr ⟨by decide, oneLine_cons.mpr ⟨other, oneLine_nil⟩⟩
    split
    next => decide
    split
    next control => exact oneLine_hexEscape (toNat_lt_of_isControl control)
    next control =>
      have other := ne_newline_of_isControl (Bool.eq_false_iff.mpr control)
      exact oneLine_cons.mpr ⟨other, oneLine_nil⟩
  exact oneLine_cons.mpr
    ⟨by decide, oneLine_append.mpr ⟨oneLine_flatMap each value, by decide⟩⟩

theorem oneLine_urlText (value : Text) : OneLine (urlText value) := by
  have each (c : Char) : OneLine (urlCharText c) := by
    rw [urlCharText]
    split
    next control =>
      rw [Bool.or_eq_true, beq_iff_eq] at control
      rcases control with control | rfl
      · exact oneLine_hexEscape (toNat_lt_of_isControl control)
      · exact oneLine_hexEscape (by decide)
    next control =>
      rw [Bool.or_eq_true, not_or] at control
      have other := ne_newline_of_isControl (Bool.eq_false_iff.mpr control.1)
      split
      next => exact oneLine_cons.mpr ⟨by decide, oneLine_cons.mpr ⟨other, oneLine_nil⟩⟩
      next => exact oneLine_cons.mpr ⟨other, oneLine_nil⟩
  exact oneLine_append.mpr
    ⟨oneLine_append.mpr ⟨by decide, oneLine_flatMap each value⟩, by decide⟩

theorem oneLine_unitText (unit : Text) : OneLine (unitText unit) := by
  rw [unitText.eq_def]
  split
  next => exact oneLine_nil
  next c rest =>
    split
    next => exact oneLine_append.mpr ⟨by decide, oneLine_nameText rest⟩
    next => exact oneLine_identText (c :: rest)

theorem oneLine_positional (digits : Nat) (exponent : Int) :
    OneLine (positional digits exponent) := by
  rw [positional.eq_def]
  split
  next zeros =>
    refine oneLine_append.mpr ⟨oneLine_natural digits, fun member => ?_⟩
    cases List.eq_of_mem_replicate member
  next k =>
    have fraction : OneLine (dropTrailingZeros
        (List.replicate (k + 1 - (natural (digits % Nat.pow 10 (k + 1))).length) '0' ++
          natural (digits % Nat.pow 10 (k + 1)))) := by
      intro member
      have inside := List.mem_reverse.mp
        ((List.dropWhile_sublist _).subset (List.mem_reverse.mp member))
      rcases List.mem_append.mp inside with zero | digit
      · cases List.eq_of_mem_replicate zero
      · exact oneLine_natural _ digit
    refine oneLine_append.mpr ⟨oneLine_natural _, ?_⟩
    split
    next => exact oneLine_nil
    next => exact oneLine_cons.mpr ⟨by decide, fraction⟩

theorem oneLine_decimalText (layout : Layout) (d : Decimal) : OneLine (d.text layout) := by
  rw [Decimal.text]
  generalize (if digitCount d.digits - layout.mostDigits = 0 then d.digits else _) = digits
  dsimp only
  split
  next =>
    split
    next => exact oneLine_append.mpr ⟨oneLine_positional _ _, by decide⟩
    next => exact oneLine_positional _ _
  next =>
    exact oneLine_append.mpr
      ⟨oneLine_positional _ _, oneLine_cons.mpr ⟨by decide, oneLine_integer _⟩⟩

theorem oneLine_textOf (n : Numeral) (size : Magnitude) : OneLine (n.textOf size) := by
  have sign : OneLine (n.signText size) := by
    rw [Numeral.signText]
    split
    next => decide
    next =>
      split
      next => decide
      next => split <;> decide
  have digits : OneLine size.sheetText := by
    rw [Magnitude.sheetText.eq_def]
    split
    next => decide
    next => exact oneLine_decimalText _ _
    next => decide
    next => decide
  refine oneLine_append.mpr ⟨oneLine_append.mpr ⟨sign, digits⟩, ?_⟩
  split <;> decide

/-- A token that could end a line if it was written: the end of a line itself, a comment,
and what is broken. -/
def Token.EndsLine : Token → Prop
  | .delim c => c = '\n'
  | .comment _ => True
  | .badString _ => True
  | .badUrl _ => True
  | _ => False

theorem Token.text_oneLine {t : Token} (inside : ¬t.EndsLine) : OneLine t.text := by
  cases t with
  | ident name => exact oneLine_identText name
  | atKeyword name => exact oneLine_cons.mpr ⟨by decide, oneLine_identText name⟩
  | hash name => exact oneLine_cons.mpr ⟨by decide, oneLine_nameText name⟩
  | idHash name => exact oneLine_cons.mpr ⟨by decide, oneLine_identText name⟩
  | string value => exact oneLine_stringText value
  | badString value => exact absurd trivial inside
  | url value => exact oneLine_urlText value
  | badUrl contents => exact absurd trivial inside
  | function name => exact oneLine_append.mpr ⟨oneLine_identText name, by decide⟩
  | number value => exact oneLine_textOf value value.size
  | percentage value => exact oneLine_append.mpr ⟨oneLine_textOf value _, by decide⟩
  | dimension value unit =>
      exact oneLine_append.mpr ⟨oneLine_textOf value value.size, oneLine_unitText unit⟩
  | delim c => exact oneLine_cons.mpr ⟨inside, oneLine_nil⟩
  | whitespace => exact oneLine_cons.mpr ⟨by decide, oneLine_nil⟩
  | comment text => exact absurd trivial inside
  | colon => exact oneLine_cons.mpr ⟨by decide, oneLine_nil⟩
  | semicolon => exact oneLine_cons.mpr ⟨by decide, oneLine_nil⟩
  | comma => exact oneLine_cons.mpr ⟨by decide, oneLine_nil⟩
  | matcher kind => cases kind <;> decide
  | commentOpen => exact (by decide : OneLine "<!--".toList)
  | commentClose => exact (by decide : OneLine "-->".toList)
  | opening bracket => cases bracket <;> decide
  | closing bracket => cases bracket <;> decide

end Texts

/-!
### No token is the end of a line

The end of a line is white space wherever it is scanned.
-/

theorem readNumeric_ne_delim (s : Text) (c : Char) : (readNumeric s).1 ≠ .delim c := by
  rw [readNumeric]
  dsimp only
  split
  next =>
    intro same
    cases same
  next => split <;> (intro same; cases same)

theorem readWord_ne_delim (s : Text) (c : Char) : (readWord s).1 ≠ .delim c := by
  rw [readWord]
  dsimp only
  split
  next rest same =>
    split
    next token more address =>
      split at address
      next =>
        rw [readUrl] at address
        split at address
        next => cases address
        next =>
          split at address
          next =>
            cases address
            intro same
            cases same
          next =>
            cases address
            intro same
            cases same
      next => cases address
    next =>
      intro same
      cases same
  next =>
    intro same
    cases same

theorem readPunctuation_eq_delim {c d : Char} {s : Text}
    (mark : (readPunctuation c s).1 = .delim d) : c = d := by
  rw [readPunctuation.eq_def] at mark
  split at mark
  all_goals try cases mark
  all_goals try rfl
  split at mark
  next => cases mark
  next =>
    cases mark
    rfl

theorem scan_ne_newline (c : Char) (s : Text) : (scan c s).1 ≠ .delim '\n' := by
  rw [scan]
  split
  next =>
    intro same
    cases same
  next dark =>
    have other : c ≠ '\n' := by
      rintro rfl
      exact dark rfl
    split
    next =>
      obtain ⟨⟨value, broken⟩, taken⟩ := readString c s
      cases broken <;> (intro same; cases same)
    split
    next =>
      obtain ⟨name, taken⟩ := readName s
      dsimp only
      split
      next =>
        intro same
        cases same
      split
      next =>
        intro same
        cases same
      next => exact fun same => other (Token.delim.inj same)
    split
    next =>
      split
      next =>
        intro same
        cases same
      next => exact fun same => other (Token.delim.inj same)
    split
    next => exact readNumeric_ne_delim _ _
    split
    next => exact readWord_ne_delim _ _
    next => exact fun same => other (readPunctuation_eq_delim same)

/-!
### What is written stands on one line
-/

section Writing

variable {commas : Bool}

mutual

theorem write_oneLine {t : Tree} {w : Text} (holds : t.Holds (· ≠ .delim '\n'))
    (dark : t.isBlank = false) (written : t.write commas = .ok w) : OneLine w := by
  cases t with
  | leaf lexeme =>
      have dark : lexeme.token.isBlank = false := dark
      have token : lexeme.token ≠ .delim '\n' := holds
      obtain ⟨string, address, rfl⟩ := write_leaf_eq_ok.mp written
      refine Token.text_oneLine ?_
      generalize lexeme.token = t at token dark string address
      cases t with
      | delim c => exact fun same => token (congrArg Token.delim same)
      | comment text => cases dark
      | badString value => exact absurd rfl (string value)
      | badUrl contents => exact absurd rfl (address contents)
      | _ => nofun
  | block bracket opener children stop closed =>
      obtain ⟨⟨opens, -⟩, inside⟩ := holds
      obtain ⟨inner, read, rfl⟩ := write_block_eq_ok.mp written
      have contents := writeTrees_oneLine inside read
      have start : OneLine opener.token.text := by
        refine Token.text_oneLine ?_
        generalize opener.token = t at opens
        cases t with
        | function name => nofun
        | opening bracket => nofun
        | _ => cases opens
      have finish : OneLine [bracket.closeChar] := by cases bracket <;> decide
      exact oneLine_append.mpr ⟨oneLine_append.mpr ⟨start, contents⟩, finish⟩

/-- What is written of scanned tokens stands on one line. -/
theorem writeTrees_oneLine {nested gap begun : Bool} {ts : List Tree} {w : Text}
    (holds : HoldsAll (· ≠ .delim '\n') ts)
    (written : writeTrees commas nested gap begun ts = .ok w) : OneLine w := by
  cases ts with
  | nil =>
      cases written
      split <;> decide
  | cons t rest =>
      obtain ⟨first, more⟩ := holds
      rcases writeTrees_cons_eq_ok.mp written with ⟨-, later⟩ | ⟨-, -, after, later, rfl⟩ |
        ⟨dark, -, head, text, after, later, rfl⟩
      · exact writeTrees_oneLine more later
      · exact oneLine_cons.mpr ⟨by decide, writeTrees_oneLine more later⟩
      · have here := write_oneLine first dark text
        have there := writeTrees_oneLine more later
        refine oneLine_append.mpr ⟨oneLine_append.mpr ⟨?_, here⟩, there⟩
        split <;> decide

end

/-- A text that is spelled from scanned tokens stands on one line. -/
theorem Spelled.oneLine {w : Text} (spelled : Spelled commas (· ≠ .delim '\n') w) :
    OneLine w := by
  obtain ⟨ts, holds, written⟩ := spelled
  exact writeTrees_oneLine holds written

theorem oneLine_of_respelled {v w : Text} (spelling : respelled commas v = some w) :
    OneLine w :=
  Spelled.oneLine ⟨trees v, holdsAll_trees (forall_mem_tokens scan_ne_newline v),
    toOption_eq_some.mp spelling⟩

/-- All texts of what is read stand on one line. -/
theorem oneLine_of_parse {source : Text} {nodes : List Node}
    (read : parse commas source = .ok nodes) : AllTexts OneLine nodes :=
  fun w member => ((drawnAll_of_parse scan_ne_newline read).texts w member).oneLine

/-- All texts that were spelled anew stand on one line. -/
theorem oneLine_of_respell {nodes others : List Node}
    (respelling : respellAll commas nodes = some others) : AllTexts OneLine others := by
  intro w member
  obtain ⟨v, spelling⟩ := exists_respelled respelling w member
  exact oneLine_of_respelled spelling

end Writing

end Swatch
