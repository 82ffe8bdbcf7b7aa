/-
Module: Swatch.Proofs.Notation
Purpose: Whatever is spelled as a number is read as it, up to its end, and what is printed for a
  number is spelled as one.
Main exports:
  Written.Spelled, Written.Printed, Written.Ends, readWritten_text, textOf_printed,
  readNumeric_number, readNumeric_percentage, readNumeric_dimension
-/
import Swatch.Number.Layout
import Swatch.Proofs.Tokens

namespace Swatch

/-!
### Notations
-/

/-- One digit or more, and nothing else. -/
def IsDigits (s : Text) : Prop := s ≠ [] ∧ ∀ c ∈ s, c.isDigit = true

/-- A number as it may be spelled: with a digit before its point or a fraction behind it. -/
structure Written.Spelled (w : Written) : Prop where
  sign : ∀ c ∈ w.sign, c = '+' ∨ c = '-'
  whole : ∀ c ∈ w.whole, c.isDigit = true
  digit : w.fraction = none → w.whole ≠ []
  fraction : ∀ digits ∈ w.fraction, IsDigits digits
  exponent : ∀ e ∈ w.exponent,
    (e.1 = 'e' ∨ e.1 = 'E') ∧ (∀ c ∈ e.2.1, c = '+' ∨ c = '-') ∧ IsDigits e.2.2

/-- A number as it is printed: its whole part has a digit, and its exponent a small letter and
no plus. -/
structure Written.Printed (w : Written) : Prop where
  sign : ∀ c ∈ w.sign, c = '+' ∨ c = '-'
  whole : IsDigits w.whole
  fraction : ∀ digits ∈ w.fraction, IsDigits digits
  exponent : ∀ e ∈ w.exponent, e.1 = 'e' ∧ (∀ c ∈ e.2.1, c = '-') ∧ IsDigits e.2.2

theorem Written.Printed.spelled {w : Written} (printed : w.Printed) : w.Spelled where
  sign := printed.sign
  whole := printed.whole.2
  digit := fun _ => printed.whole.1
  fraction := printed.fraction
  exponent := by
    intro e found
    obtain ⟨letter, signs, digits⟩ := printed.exponent e found
    exact ⟨.inl letter, fun c member => .inr (signs c member), digits⟩

/-- Nothing at the start of the text goes on with the number. -/
structure Written.Ends (w : Written) (rest : Text) : Prop where
  digits : Stops Char.isDigit rest
  fraction : w.fraction = none → w.exponent = none → leadingFraction rest = none
  exponent : w.exponent = none → leadingExponent rest = none

theorem Written.ends_nil (w : Written) : w.Ends [] := ⟨rfl, fun _ _ => rfl, fun _ => rfl⟩

theorem IsDigits.startsWithDigit {s : Text} (digits : IsDigits s) (rest : Text) :
    startsWithDigit (s ++ rest) = true := by
  obtain ⟨nonempty, all⟩ := digits
  cases s with
  | nil => exact absurd rfl nonempty
  | cons c s => exact all c (by simp)

theorem isDigits_natural (n : Nat) : IsDigits (natural n) :=
  ⟨Nat.toDigits_ne_nil, fun _ member =>
    Nat.isDigit_of_mem_toDigits (by decide) (by decide) member⟩

/-!
### Reading back
-/

theorem IsDigits.leadingSign {s : Text} (digits : IsDigits s) (rest : Text) :
    leadingSign (s ++ rest) = none := by
  obtain ⟨nonempty, all⟩ := digits
  cases s with
  | nil => exact absurd rfl nonempty
  | cons c s =>
      have inside : c.isDigit = true := all c (by simp)
      exact leadingSign_of_ne _ (ne_of_class inside (by decide)) (ne_of_class inside (by decide))

/-- A sign is read where no other one follows, and only a sign. -/
theorem leadingSign_text {sign : Option Char} {s : Text}
    (signs : ∀ c ∈ sign, c = '+' ∨ c = '-') (bare : leadingSign s = none) :
    leadingSign (sign.toList ++ s) = sign ∧ afterSign (sign.toList ++ s) = s := by
  have read : leadingSign (sign.toList ++ s) = sign := by
    cases sign with
    | none => exact bare
    | some c =>
        rcases signs c rfl with rfl | rfl
        · rfl
        · rfl
  exact ⟨read, by rw [afterSign, read, List.drop_left]⟩

theorem leadingFraction_text {fraction : Option Text} {rest : Text}
    (digits : ∀ more ∈ fraction, IsDigits more) (stops : Stops Char.isDigit rest)
    (point : fraction = none → leadingFraction rest = none) :
    leadingFraction (Written.fractionText fraction ++ rest) = fraction := by
  cases fraction with
  | none => exact point rfl
  | some more =>
      have inside := digits more rfl
      rw [Written.fractionText, List.cons_append, leadingFraction,
        if_pos (inside.startsWithDigit rest), leadingDigits, takeWhile_run inside.2 stops]

theorem leadingExponent_text {exponent : Option (Char × Option Char × Text)} {rest : Text}
    (parts : ∀ e ∈ exponent,
      (e.1 = 'e' ∨ e.1 = 'E') ∧ (∀ c ∈ e.2.1, c = '+' ∨ c = '-') ∧ IsDigits e.2.2)
    (stops : Stops Char.isDigit rest) (letter : exponent = none → leadingExponent rest = none) :
    leadingExponent (Written.exponentText exponent ++ rest) = exponent := by
  cases exponent with
  | none => exact letter rfl
  | some e =>
      obtain ⟨e, sign, digits⟩ := e
      obtain ⟨letter, signs, inside⟩ := parts _ rfl
      dsimp only at letter signs inside
      obtain ⟨read, after⟩ := leadingSign_text signs (inside.leadingSign rest)
      rw [Written.exponentText, List.cons_append, List.append_assoc, leadingExponent, after,
        read, inside.startsWithDigit rest, leadingDigits, takeWhile_run inside.2 stops]
      rcases letter with rfl | rfl
      · rfl
      · rfl

section Read

variable {w : Written} {rest : Text}

/-- The exponent, if there is one, ends a run of digits. -/
theorem Written.Ends.stops_exponent (ends : w.Ends rest) (proper : w.Spelled) :
    Stops Char.isDigit (exponentText w.exponent ++ rest) := by
  cases exponent : w.exponent with
  | none => exact ends.digits
  | some e =>
      obtain ⟨letter, -, -⟩ := proper.exponent e exponent
      rw [exponentText, List.cons_append, stops_cons]
      rcases letter with same | same
      · rw [same]
        rfl
      · rw [same]
        rfl

theorem Written.Ends.stops_fraction (ends : w.Ends rest) (proper : w.Spelled) :
    Stops Char.isDigit (fractionText w.fraction ++ (exponentText w.exponent ++ rest)) := by
  cases w.fraction with
  | none => exact ends.stops_exponent proper
  | some digits => rfl

/-- Without a fraction there is no point behind the digits. -/
theorem Written.Ends.noPoint (ends : w.Ends rest) (proper : w.Spelled)
    (whole : w.fraction = none) : leadingFraction (exponentText w.exponent ++ rest) = none := by
  cases exponent : w.exponent with
  | none => exact ends.fraction whole exponent
  | some e =>
      obtain ⟨letter, -, -⟩ := proper.exponent e exponent
      rw [exponentText, List.cons_append]
      rcases letter with same | same
      · rw [same]
        rfl
      · rw [same]
        rfl

/-- No sign stands behind that of a number. -/
theorem Written.Spelled.leadingSign (proper : w.Spelled) (rest : Text) :
    leadingSign (w.whole ++ (fractionText w.fraction ++ rest)) = none := by
  by_cases empty : w.whole = []
  · cases fraction : w.fraction with
    | none => exact absurd empty (proper.digit fraction)
    | some digits =>
        rw [empty]
        rfl
  · exact IsDigits.leadingSign ⟨empty, proper.whole⟩ _

/-- A number is read as it is spelled, up to what does not go on with it. -/
theorem readWritten_text (proper : w.Spelled) (ends : w.Ends rest) :
    readWritten (w.text ++ rest) = w := by
  have spelled : w.text ++ rest = w.sign.toList ++ (w.whole ++ (Written.fractionText w.fraction ++
      (Written.exponentText w.exponent ++ rest))) := by
    simp only [Written.text, List.append_assoc]
  obtain ⟨sign, after⟩ := leadingSign_text proper.sign
    (proper.leadingSign (Written.exponentText w.exponent ++ rest))
  have whole : leadingDigits (w.whole ++ (Written.fractionText w.fraction ++
      (Written.exponentText w.exponent ++ rest))) = w.whole :=
    takeWhile_run proper.whole (ends.stops_fraction proper)
  have fraction := leadingFraction_text proper.fraction (ends.stops_exponent proper)
    (ends.noPoint proper)
  have exponent := leadingExponent_text proper.exponent ends.digits ends.exponent
  simp only [readWritten, spelled, sign, after, whole, List.drop_left, fraction, exponent]

/-- Behind a number without an exponent one is read, if it stands there. -/
theorem readWritten_exponent (proper : w.Spelled) (bare : w.exponent = none)
    (digits : Stops Char.isDigit rest) (point : w.fraction = none → leadingFraction rest = none) :
    readWritten (w.text ++ rest) = { w with exponent := leadingExponent rest } := by
  have spelled : w.text ++ rest =
      w.sign.toList ++ (w.whole ++ (Written.fractionText w.fraction ++ rest)) := by
    simp [Written.text, bare, Written.exponentText]
  obtain ⟨sign, after⟩ := leadingSign_text proper.sign (proper.leadingSign rest)
  have stops : Stops Char.isDigit (Written.fractionText w.fraction ++ rest) := by
    cases w.fraction with
    | none => exact digits
    | some more => rfl
  have whole : leadingDigits (w.whole ++ (Written.fractionText w.fraction ++ rest)) = w.whole :=
    takeWhile_run proper.whole stops
  have fraction := leadingFraction_text proper.fraction digits point
  simp only [readWritten, spelled, sign, after, whole, List.drop_left, fraction]

/-- A number starts like one. -/
theorem Written.Spelled.startsNumber (proper : w.Spelled) (rest : Text) :
    startsNumber (w.text ++ rest) = true := by
  have spelled : w.text ++ rest = w.sign.toList ++ (w.whole ++ (fractionText w.fraction ++
      (exponentText w.exponent ++ rest))) := by
    simp only [text, List.append_assoc]
  obtain ⟨-, after⟩ := leadingSign_text proper.sign
    (proper.leadingSign (exponentText w.exponent ++ rest))
  rw [Swatch.startsNumber, spelled, after]
  by_cases empty : w.whole = []
  · cases fraction : w.fraction with
    | none => exact absurd empty (proper.digit fraction)
    | some digits =>
        have inside := (proper.fraction digits fraction).startsWithDigit
          (exponentText w.exponent ++ rest)
        rw [empty, List.nil_append, fractionText, List.cons_append, leadingFraction, if_pos inside]
        rfl
  · rw [IsDigits.startsWithDigit ⟨empty, proper.whole⟩, Bool.true_or]

/-!
### What belongs to a number
-/

theorem readNumeric_number (proper : w.Spelled) (ends : w.Ends rest)
    (percent : rest.head? ≠ some '%') (unit : startsName rest = false) :
    readNumeric (w.text ++ rest) = (.number w.number, w.text.length) := by
  simp only [readNumeric, readWritten_text proper ends, List.drop_left, if_neg percent, unit]
  rfl

theorem readNumeric_percentage (proper : w.Spelled) (rest : Text) :
    readNumeric (w.text ++ '%' :: rest) = (.percentage w.percentage, w.text.length + 1) := by
  have ends : w.Ends ('%' :: rest) := ⟨rfl, fun _ _ => rfl, fun _ => rfl⟩
  simp only [readNumeric, readWritten_text proper ends, List.drop_left, List.head?_cons, if_true]

theorem readNumeric_dimension (proper : w.Spelled) (ends : w.Ends rest)
    (unit : startsName rest = true) :
    readNumeric (w.text ++ rest) =
      (.dimension w.number (readName rest).1, w.text.length + (readName rest).2) := by
  have percent : rest.head? ≠ some '%' := by
    cases rest with
    | nil => cases unit
    | cons c rest =>
        intro same
        cases same
        cases unit
  simp only [readNumeric, readWritten_text proper ends, List.drop_left, if_neg percent, unit,
    if_true]

end Read

/-!
### Printed numbers
-/

/-- Digits before the point and, if there are any, behind it. -/
theorem positional_printed (digits : Nat) (exponent : Int) :
    ∃ w : Written, w.Printed ∧ w.sign = none ∧ w.exponent = none ∧
      positional digits exponent = w.text := by
  rw [positional.eq_def]
  split
  next zeros =>
    have whole : IsDigits (natural digits ++ List.replicate zeros '0') := by
      refine ⟨by simp [(isDigits_natural digits).1], fun c member => ?_⟩
      rcases List.mem_append.mp member with digit | zero
      · exact (isDigits_natural digits).2 c digit
      · rw [List.eq_of_mem_replicate zero]
        rfl
    refine ⟨⟨none, natural digits ++ List.replicate zeros '0', none, none⟩,
      ⟨by simp, whole, by simp, by simp⟩, rfl, rfl, ?_⟩
    simp [Written.text, Written.fractionText, Written.exponentText]
  next k =>
    have places : ∀ c ∈ dropTrailingZeros
        (List.replicate (k + 1 - (natural (digits % Nat.pow 10 (k + 1))).length) '0' ++
          natural (digits % Nat.pow 10 (k + 1))), c.isDigit = true := by
      intro c member
      have inside := List.mem_reverse.mp
        ((List.dropWhile_sublist _).subset (List.mem_reverse.mp member))
      rcases List.mem_append.mp inside with zero | digit
      · rw [List.eq_of_mem_replicate zero]
        rfl
      · exact (isDigits_natural _).2 c digit
    dsimp only
    generalize dropTrailingZeros _ = fraction at places ⊢
    cases fraction with
    | nil =>
        refine ⟨⟨none, natural (digits / Nat.pow 10 (k + 1)), none, none⟩,
          ⟨by simp, isDigits_natural _, by simp, by simp⟩, rfl, rfl, ?_⟩
        simp [Written.text, Written.fractionText, Written.exponentText]
    | cons c more =>
        refine ⟨⟨none, natural (digits / Nat.pow 10 (k + 1)), some (c :: more), none⟩,
          ⟨by simp, isDigits_natural _, ?_, by simp⟩, rfl, rfl, ?_⟩
        · rintro _ ⟨⟩
          exact ⟨List.cons_ne_nil c more, places⟩
        · simp [Written.text, Written.fractionText, Written.exponentText]

theorem integer_eq (i : Int) :
    ∃ sign : Option Char, (∀ c ∈ sign, c = '-') ∧
      integer i = sign.toList ++ natural i.natAbs := by
  rw [integer]
  split
  next => exact ⟨some '-', by simp, rfl⟩
  next => exact ⟨none, by simp, rfl⟩

theorem decimalText_printed (d : Decimal) :
    ∃ w : Written, w.Printed ∧ w.sign = none ∧ d.text Layout.sheet = w.text := by
  rw [Decimal.text]
  generalize (if digitCount d.digits - Layout.sheet.mostDigits = 0 then d.digits else _) = digits
  dsimp only
  split
  next =>
    have point : Layout.sheet.keepsPoint = false := rfl
    rw [point, if_neg (by simp)]
    obtain ⟨w, printed, sign, -, spelled⟩ := positional_printed digits _
    exact ⟨w, printed, sign, spelled⟩
  next =>
    obtain ⟨w, printed, sign, none, spelled⟩ :=
      positional_printed digits (d.point - ↑(digitCount d.digits -
        (digitCount d.digits - Layout.sheet.mostDigits)) - (d.point - 1))
    obtain ⟨minus, signs, exponent⟩ := integer_eq (d.point - 1)
    refine ⟨{ w with exponent := some ('e', minus, natural (d.point - 1).natAbs) },
      ⟨printed.sign, printed.whole, printed.fraction, ?_⟩, sign, ?_⟩
    · rintro _ ⟨⟩
      exact ⟨rfl, signs, isDigits_natural _⟩
    · rw [spelled, exponent]
      simp [Written.text, Written.exponentText, none]

theorem sheetText_printed (m : Magnitude) :
    ∃ w : Written, w.Printed ∧ w.sign = none ∧ m.sheetText = w.text := by
  rw [Magnitude.sheetText.eq_def]
  split
  next =>
    refine ⟨⟨none, ['0'], none, none⟩, ⟨by simp, ?_, by simp, by simp⟩, rfl, rfl⟩
    exact ⟨by simp, List.all_eq_true.mp rfl⟩
  next units _ => exact decimalText_printed _
  next =>
    refine ⟨⟨none, ['3'], some "40282".toList, some ('e', none, "38".toList)⟩,
      ⟨by simp, ⟨by simp, List.all_eq_true.mp rfl⟩, ?_, ?_⟩, rfl, rfl⟩
    · rintro _ ⟨⟩
      exact ⟨by simp, List.all_eq_true.mp rfl⟩
    · rintro _ ⟨⟩
      exact ⟨rfl, by simp, by simp, List.all_eq_true.mp rfl⟩
  next =>
    refine ⟨⟨none, ['5'], some "10424".toList, some ('e', none, "38".toList)⟩,
      ⟨by simp, ⟨by simp, List.all_eq_true.mp rfl⟩, ?_, ?_⟩, rfl, rfl⟩
    · rintro _ ⟨⟩
      exact ⟨by simp, List.all_eq_true.mp rfl⟩
    · rintro _ ⟨⟩
      exact ⟨rfl, by simp, by simp, List.all_eq_true.mp rfl⟩

/-- A text without a point and without a letter has no fraction and no exponent. -/
theorem Written.Printed.isInteger {w : Written} (printed : w.Printed)
    (plain : w.text.any (fun c => c == '.' || c == 'e') = false) :
    w.fraction = none ∧ w.exponent = none := by
  rw [List.any_eq_false] at plain
  constructor
  · cases fraction : w.fraction with
    | none => rfl
    | some digits =>
        have member : '.' ∈ w.text := by simp [text, fraction, fractionText]
        exact absurd rfl (plain '.' member)
  · cases exponent : w.exponent with
    | none => rfl
    | some e =>
        obtain ⟨small, -, -⟩ := printed.exponent e exponent
        have member : 'e' ∈ w.text := by simp [text, exponent, exponentText, small]
        exact absurd rfl (plain 'e' member)

/-- A number has the sign that was read, if any. -/
theorem signText_cases (n : Numeral) (size : Magnitude) :
    n.signText size = [] ∨ n.signText size = ['+'] ∨ n.signText size = ['-'] := by
  rw [Numeral.signText]
  split
  next => exact .inl rfl
  next =>
    split
    next => exact .inr (.inr rfl)
    next =>
      split
      next => exact .inr (.inl rfl)
      next => exact .inl rfl

/-- What has no value is spelled the same, whatever was read. -/
theorem textOf_undefined (n : Numeral) : n.textOf .undefined = "5.10424e38".toList := by
  have digits : Magnitude.undefined.sheetText = "5.10424e38".toList := rfl
  have fractional : single.isWhole .undefined = false := rfl
  rw [Numeral.textOf, Numeral.signText, if_pos rfl, fractional, Bool.and_false, Bool.false_and,
    if_neg Bool.false_ne_true, List.append_nil, List.nil_append, digits]

/-- What is printed for a number, whatever its magnitude, is a number with its sign. -/
theorem textOf_printed (n : Numeral) (size : Magnitude) :
    ∃ w : Written, w.Printed ∧ w.sign.toList = n.signText size ∧ n.textOf size = w.text := by
  obtain ⟨w, printed, unsigned, spelled⟩ := sheetText_printed size
  obtain ⟨sign, signs, signed⟩ : ∃ sign : Option Char, (∀ c ∈ sign, c = '+' ∨ c = '-') ∧
      n.signText size = sign.toList := by
    rcases signText_cases n size with signed | signed | signed
    · exact ⟨none, by simp, signed⟩
    · exact ⟨some '+', by simp, signed⟩
    · exact ⟨some '-', by simp, signed⟩
  rw [Numeral.textOf, spelled, signed]
  split
  next fractional =>
    rw [Bool.and_eq_true, Bool.not_eq_true'] at fractional
    obtain ⟨fraction, exponent⟩ := printed.isInteger fractional.2
    refine ⟨⟨sign, w.whole, some ['0'], none⟩, ⟨signs, printed.whole, ?_, by simp⟩, rfl, ?_⟩
    · rintro _ ⟨⟩
      exact ⟨by simp, List.all_eq_true.mp rfl⟩
    · simp [Written.text, unsigned, fraction, exponent, Written.fractionText,
        Written.exponentText]
  next =>
    refine ⟨{ w with sign := sign }, ⟨signs, printed.whole, printed.fraction,
      printed.exponent⟩, rfl, ?_⟩
    simp [Written.text, unsigned]

/-- A number is printed with its sign and a digit at the start. -/
theorem head_textOf (n : Numeral) (size : Magnitude) :
    ∃ d more, n.textOf size = n.signText size ++ d :: more ∧ d.isDigit = true := by
  obtain ⟨w, printed, signed, spelled⟩ := textOf_printed n size
  obtain ⟨d, digits, whole⟩ := List.exists_cons_of_ne_nil printed.whole.1
  refine ⟨d, digits ++ Written.fractionText w.fraction ++ Written.exponentText w.exponent, ?_,
    printed.whole.2 d (by simp [whole])⟩
  rw [spelled, ← signed, Written.text, whole]
  simp

/-- The sign that is printed before a value is the one that was read. -/
theorem signText_read {s : Text} {n : Numeral}
    (read : n = (readWritten s).number ∨ n = (readWritten s).percentage) {size : Magnitude}
    (valued : size ≠ .undefined) : n.signText size = (leadingSign s).toList := by
  have signed : n.signed = (leadingSign s).isSome := by rcases read with rfl | rfl <;> rfl
  have negative : n.negative = decide (leadingSign s = some '-') := by
    rcases read with rfl | rfl <;> rfl
  rw [Numeral.signText, if_neg valued, signed, negative]
  cases sign : leadingSign s with
  | none => rfl
  | some c =>
      have either : c = '+' ∨ c = '-' := by
        have kept := (Option.filter_eq_some_iff.mp sign).2
        simpa using kept
      rcases either with rfl | rfl
      · rfl
      · rfl

end Swatch
