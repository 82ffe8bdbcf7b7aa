/-
Module: Swatch.Proofs.Exact
Purpose: Whole numbers that a significand holds are computed without rounding.
Main exports:
  Precision.round_exact, Precision.whole, wholeValue_eq, digitsNumeral_size
-/
import Mathlib.Algebra.Group.Nat.Defs
import Swatch.Number.Layout
import Swatch.Proofs.Tokens

namespace Swatch

/-- A power of two only adds its exponent to the place of the highest bit. -/
theorem log2_mul_two_pow {n : Nat} (positive : n ≠ 0) (k : Nat) :
    (n * 2 ^ k).log2 = n.log2 + k := by
  have product : n * 2 ^ k ≠ 0 := Nat.mul_ne_zero positive (Nat.ne_of_gt (Nat.two_pow_pos k))
  rw [Nat.log2_eq_iff product, Nat.pow_add, Nat.add_right_comm, Nat.pow_add]
  exact ⟨Nat.mul_le_mul_right _ (Nat.log2_self_le positive),
    Nat.mul_lt_mul_of_pos_right Nat.lt_log2_self (Nat.two_pow_pos k)⟩

namespace Precision

/-- A whole number as a magnitude. -/
def whole (p : Precision) (n : Nat) : Magnitude := .finite (n * 2 ^ p.scale)

section Exact

variable {p : Precision}

/-- A multiple of the step is its own rounding. -/
theorem round_exact {units den : Nat} (positive : 0 < den) (grid : p.step units ∣ units)
    (bound : units < 2 ^ (p.limit + p.scale)) :
    p.round (units * den) den = .finite units := by
  obtain ⟨count, spelled⟩ := grid
  have unit : 0 < p.step units := Nat.pow_pos (by decide)
  have cell : 0 < den * p.step units := Nat.mul_pos positive unit
  have counted : units * den = count * (den * p.step units) := by
    rw [Nat.mul_comm den, ← Nat.mul_assoc, Nat.mul_comm count, ← spelled]
  have here : units * den / den = units := Nat.mul_div_cancel units positive
  have multiple : roundToMultiple (p.step units) (units * den) den = units := by
    have quotient : units * den / (den * p.step units) = count := by
      rw [counted, Nat.mul_div_cancel count cell]
    have rest : units * den % (den * p.step units) = 0 := by
      rw [counted, Nat.mul_mod_left]
    have down : (0 == den * p.step units) = false := beq_eq_false_iff_ne.mpr (Nat.ne_of_lt cell)
    simp only [roundToMultiple, quotient, rest, Nat.mul_zero, Nat.not_lt_zero, decide_false,
      down, Bool.false_and, Bool.or_false, Bool.false_eq_true, if_false]
    rw [Nat.mul_comm]
    exact spelled.symm
  rw [round, here, multiple]
  exact if_pos bound

/-- A whole number that the significand holds is a multiple of its step. -/
theorem step_dvd_whole {n : Nat} (small : n < 2 ^ p.bits) :
    p.step (n * 2 ^ p.scale) ∣ n * 2 ^ p.scale := by
  by_cases zero : n = 0
  · subst zero
    exact ⟨0, by simp⟩
  · have bits : n.log2 < p.bits := (Nat.log2_lt zero).mpr small
    refine Nat.dvd_trans ?_ (Nat.dvd_mul_left _ _)
    rw [step, log2_mul_two_pow zero]
    exact Nat.pow_dvd_pow 2 (by omega)

variable (fits : p.bits ≤ p.limit)

include fits in
/-- A whole number over any denominator is rounded to itself. -/
theorem round_whole {n : Nat} (den : Nat) (positive : 0 < den) (small : n < 2 ^ p.bits) :
    p.round (n * 2 ^ p.scale * den) den = p.whole n := by
  refine round_exact positive (step_dvd_whole small) ?_
  rw [Nat.pow_add]
  have bound : n < 2 ^ p.limit :=
    Nat.lt_of_lt_of_le small (Nat.pow_le_pow_right (by decide) fits)
  exact Nat.mul_lt_mul_of_pos_right bound (Nat.pow_pos (by decide))

include fits in
theorem ofRatio_whole {n : Nat} (small : n < 2 ^ p.bits) : p.ofRatio n 1 = p.whole n := by
  have rounded := round_whole fits 1 (by decide) small
  rw [Nat.mul_one] at rounded
  exact rounded

include fits in
theorem add_whole {m n : Nat} (small : m + n < 2 ^ p.bits) :
    p.add (p.whole m) (p.whole n) = p.whole (m + n) := by
  have rounded := round_whole fits 1 (by decide) small
  rw [Nat.mul_one, Nat.add_mul] at rounded
  exact rounded

include fits in
theorem mul_whole {m n : Nat} (small : m * n < 2 ^ p.bits) :
    p.mul (p.whole m) (p.whole n) = p.whole (m * n) := by
  have rounded := round_whole fits (2 ^ p.scale) (Nat.pow_pos (by decide)) small
  have same : m * n * 2 ^ p.scale * 2 ^ p.scale = m * 2 ^ p.scale * (n * 2 ^ p.scale) := by
    rw [Nat.mul_mul_mul_comm, Nat.mul_assoc]
  rw [same] at rounded
  exact rounded

/-- A whole number that the other width holds is the same there. -/
theorem convert_whole {q : Precision} (fits : q.bits ≤ q.limit) {n : Nat}
    (small : n < 2 ^ q.bits) : p.convert q (p.whole n) = q.whole n := by
  have rounded := round_whole fits (2 ^ p.scale) (Nat.pow_pos (by decide)) small
  rw [Nat.mul_right_comm] at rounded
  exact rounded

end Exact

end Precision

/-!
### Digits
-/

theorem le_foldl_digits (digits : Text) (m : Nat) :
    m ≤ digits.foldl (fun n c => 10 * n + digitValue c) m := by
  induction digits generalizing m with
  | nil => exact Nat.le_refl m
  | cons c digits ih => exact Nat.le_trans (by omega) (ih (10 * m + digitValue c))

/-- One more digit is added without rounding as long as the significand holds the number. -/
theorem add_digit_whole {m : Nat} {c : Char} (small : 10 * m + digitValue c < 2 ^ 53) :
    double.add (double.mul (double.whole m) (exactly 10)) (exactly (digitValue c)) =
      double.whole (10 * m + digitValue c) := by
  have ten : exactly 10 = double.whole 10 :=
    Precision.ofRatio_whole (p := double) (by decide) (by decide)
  have digit : exactly (digitValue c) = double.whole (digitValue c) :=
    Precision.ofRatio_whole (p := double) (by decide) (by change _ < 2 ^ 53; omega)
  have product : double.mul (double.whole m) (double.whole 10) = double.whole (m * 10) :=
    Precision.mul_whole (p := double) (by decide) (by change _ < 2 ^ 53; omega)
  have sum : double.add (double.whole (m * 10)) (double.whole (digitValue c)) =
      double.whole (m * 10 + digitValue c) :=
    Precision.add_whole (p := double) (by decide) (by change _ < 2 ^ 53; omega)
  rw [ten, digit, product, sum, Nat.mul_comm]

/-- Digits are added up without rounding as long as the significand holds the number. -/
theorem wholeValue_eq {digits : Text} (small : digitsValue digits < 2 ^ 53) :
    wholeValue digits = double.whole (digitsValue digits) := by
  have run (digits : Text) (m : Nat)
      (small : digits.foldl (fun n c => 10 * n + digitValue c) m < 2 ^ 53) :
      digits.foldl (fun n c =>
          double.add (double.mul n (exactly 10)) (exactly (digitValue c))) (double.whole m) =
        double.whole (digits.foldl (fun n c => 10 * n + digitValue c) m) := by
    induction digits generalizing m with
    | nil => rfl
    | cons c digits ih =>
        have next : 10 * m + digitValue c < 2 ^ 53 :=
          Nat.lt_of_le_of_lt (le_foldl_digits digits _) small
        rw [List.foldl_cons] at small
        rw [List.foldl_cons, List.foldl_cons, add_digit_whole next, ih _ small]
  have zero : double.whole 0 = .finite 0 := by rw [Precision.whole, Nat.zero_mul]
  rw [wholeValue, ← zero, run digits 0 small, digitsValue]

/-- A short run of digits is the number that it spells. -/
theorem digitsNumeral_size {digits : Text} (small : digitsValue digits < 2 ^ 24) :
    (digitsNumeral digits).size = single.whole (digitsValue digits) := by
  have large : digitsValue digits < 2 ^ 53 := Nat.lt_trans small (by decide)
  have sum : double.add (double.whole (digitsValue digits)) (double.whole 0) =
      double.whole (digitsValue digits) :=
    Precision.add_whole (p := double) (by decide) large
  have magnitude : (Written.magnitude ⟨none, digits, none, none⟩) =
      double.whole (digitsValue digits) := by
    have fraction : fractionValue [] = double.whole 0 := by
      rw [Precision.whole, Nat.zero_mul]
      rfl
    rw [Written.magnitude]
    simp only [Option.getD_none, wholeValue_eq large, fraction, sum]
  have converted : double.convert single (double.whole (digitsValue digits)) =
      single.whole (digitsValue digits) :=
    Precision.convert_whole (by decide) small
  rw [digitsNumeral, Written.number]
  simp only [magnitude, converted]

end Swatch
