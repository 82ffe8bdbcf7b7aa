/-
Module: Swatch.Proofs.Monotone
Purpose: Rounding keeps the order of numbers, and is off by half a step at most.
Main exports:
  Magnitude.le, Precision.round_mono, add_mono, mul_mono, divide_mono, convert_mono,
  nearestWhole_mono, round_error
-/
import Swatch.Proofs.Saturation

namespace Swatch

/-!
### The order of magnitudes
-/

/-- Magnitudes in their order, with the infinite one at its end.  What has no value counts as
zero for a component, and stands before all others. -/
inductive Magnitude.Le : Magnitude → Magnitude → Prop where
  | undefined (m : Magnitude) : Le .undefined m
  | finite {a b : Nat} (le : a ≤ b) : Le (.finite a) (.finite b)
  | infinite (m : Magnitude) : Le m .infinite

instance : LE Magnitude := ⟨Magnitude.Le⟩

namespace Magnitude

theorem finite_le {a b : Nat} : finite a ≤ finite b ↔ a ≤ b :=
  ⟨fun le => by cases le; assumption, Le.finite⟩

theorem le_infinite (m : Magnitude) : m ≤ infinite := .infinite m

theorem undefined_le (m : Magnitude) : undefined ≤ m := .undefined m

theorem zero_le {m : Magnitude} (valued : m ≠ undefined) : finite 0 ≤ m := by
  cases m with
  | finite a => exact finite_le.mpr (Nat.zero_le a)
  | infinite => exact le_infinite _
  | undefined => exact absurd rfl valued

theorem le_refl (m : Magnitude) : m ≤ m := by
  cases m with
  | finite a => exact finite_le.mpr (Nat.le_refl a)
  | infinite => exact le_infinite _
  | undefined => exact undefined_le _

theorem le_trans {a b c : Magnitude} (first : a ≤ b) (second : b ≤ c) : a ≤ c := by
  cases first with
  | undefined => exact undefined_le c
  | infinite =>
      cases second with
      | infinite => exact le_infinite a
  | finite le =>
      cases second with
      | infinite => exact le_infinite _
      | finite le' => exact finite_le.mpr (Nat.le_trans le le')

instance chains : @Trans Magnitude Magnitude Magnitude (· ≤ ·) (· ≤ ·) (· ≤ ·) := ⟨le_trans⟩

end Magnitude

instance (a b : Magnitude) : Decidable (a ≤ b) :=
  match a, b with
  | .undefined, _ => .isTrue (Magnitude.undefined_le _)
  | .finite _, .finite _ => decidable_of_iff _ Magnitude.finite_le.symm
  | _, .infinite => .isTrue (Magnitude.le_infinite _)
  | .finite _, .undefined => .isFalse (by intro le; cases le)
  | .infinite, .finite _ => .isFalse (by intro le; cases le)
  | .infinite, .undefined => .isFalse (by intro le; cases le)

/-!
### Rounding to multiples
-/

/-- A multiple of the step that is not below a number is not below its rounding. -/
theorem roundToMultiple_le {step num den units : Nat} (positive : 0 < den * step)
    (grid : step ∣ units) (above : num ≤ units * den) :
    roundToMultiple step num den ≤ units := by
  obtain ⟨count, rfl⟩ := grid
  have bound : num ≤ count * (den * step) := by
    calc num ≤ step * count * den := above
      _ = count * (den * step) := by ac_rfl
  have parts := Nat.div_add_mod num (den * step)
  rw [roundToMultiple, Nat.mul_comm step]
  refine Nat.mul_le_mul_right step ?_
  split
  next up =>
    -- The number is not itself a multiple, so the next one is not above the bound.
    have rest : num % (den * step) ≠ 0 := by
      intro none
      simp only [none, Bool.or_eq_true, decide_eq_true_eq, Bool.and_eq_true, beq_iff_eq] at up
      omega
    rw [Nat.succ_le_iff, Nat.div_lt_iff_lt_mul positive]
    refine Nat.lt_of_le_of_ne bound ?_
    rintro rfl
    exact rest (Nat.mul_mod_left _ _)
  next =>
    rw [← Nat.mul_le_mul_right_iff positive]
    calc num / (den * step) * (den * step) ≤ num := Nat.div_mul_le_self _ _
      _ ≤ count * (den * step) := bound

/-- Rounding to the same multiples keeps the order. -/
theorem roundToMultiple_mono (step den : Nat) {num num' : Nat} (le : num ≤ num') :
    roundToMultiple step num den ≤ roundToMultiple step num' den := by
  generalize cell : den * step = d
  have quotients : num / d ≤ num' / d := Nat.div_le_div_right le
  rw [roundToMultiple, roundToMultiple, cell]
  refine Nat.mul_le_mul_right step ?_
  rcases Nat.lt_or_eq_of_le quotients with less | same
  · split <;> split <;> omega
  · have rests : num % d ≤ num' % d := by
      have first := Nat.div_add_mod num d
      have second := Nat.div_add_mod num' d
      rw [same] at first
      omega
    rw [same]
    split
    next up =>
      have up' : (decide (d < 2 * (num' % d)) ||
          2 * (num' % d) == d && num' / d % 2 == 1) = true := by
        simp only [Bool.or_eq_true, decide_eq_true_eq, Bool.and_eq_true, beq_iff_eq] at up ⊢
        omega
      exact Nat.le_of_eq (if_pos up').symm
    next =>
      split
      next => exact Nat.le_succ _
      next => exact Nat.le_refl _

/-- A number is off its nearest multiple by half a step at most. -/
theorem roundToMultiple_error {step num den : Nat} (positive : 0 < den * step) :
    2 * (roundToMultiple step num den * den) ≤ 2 * num + den * step ∧
      2 * num ≤ 2 * (roundToMultiple step num den * den) + den * step := by
  have parts := Nat.div_add_mod num (den * step)
  have rest := Nat.mod_lt num positive
  have spelled (count : Nat) : count * step * den = den * step * count := by ac_rfl
  rw [roundToMultiple, spelled]
  split
  next up =>
    simp only [Bool.or_eq_true, decide_eq_true_eq, Bool.and_eq_true, beq_iff_eq] at up
    rw [Nat.mul_add, Nat.mul_one]
    omega
  next up =>
    simp only [Bool.or_eq_true, decide_eq_true_eq, Bool.and_eq_true, beq_iff_eq, not_or] at up
    omega

/-- The place of the highest bit grows with the number. -/
theorem log2_mono {m n : Nat} (le : m ≤ n) : m.log2 ≤ n.log2 := by
  by_cases zero : m = 0
  · subst zero
    exact Nat.zero_le _
  · have nonzero : n ≠ 0 := by omega
    exact (Nat.le_log2 nonzero).mpr (Nat.le_trans (Nat.log2_self_le zero) le)

namespace Precision

section Order

variable {p : Precision}

theorem step_pos (p : Precision) (units : Nat) : 0 < p.step units := Nat.pow_pos (by decide)

/-- A number is off its rounding by half a step at most. -/
theorem round_error {num den units : Nat} (positive : 0 < den)
    (found : p.round num den = .finite units) :
    2 * (units * den) ≤ 2 * num + den * p.step (num / den) ∧
      2 * num ≤ 2 * (units * den) + den * p.step (num / den) := by
  rw [round] at found
  split at found
  next =>
    obtain rfl := Magnitude.finite.inj found
    exact roundToMultiple_error (Nat.mul_pos positive (step_pos p _))
  next => cases found

/-- Rounding keeps the order of numbers. -/
theorem round_mono (wide : 0 < p.bits) {num num' den : Nat} (positive : 0 < den)
    (le : num ≤ num') : p.round num den ≤ p.round num' den := by
  have cell (units : Nat) : 0 < den * p.step units := Nat.mul_pos positive (step_pos p units)
  have quotients : num / den ≤ num' / den := Nat.div_le_div_right le
  have rounded : roundToMultiple (p.step (num / den)) num den ≤
      roundToMultiple (p.step (num' / den)) num' den := by
    rcases Nat.lt_or_eq_of_le (log2_mono quotients) with less | same
    · -- The power of two at the second number lies between the two, on the grids of both.
      have nonzero : num' / den ≠ 0 := by
        intro zero
        rw [zero] at less
        cases less
      have below : num ≤ 2 ^ (num' / den).log2 * den := by
        have bound : num / den < 2 ^ (num' / den).log2 :=
          Nat.lt_of_lt_of_le Nat.lt_log2_self (Nat.pow_le_pow_right (by decide) less)
        exact Nat.le_of_lt ((Nat.div_lt_iff_lt_mul positive).mp bound)
      have above : 2 ^ (num' / den).log2 * den ≤ num' :=
        calc 2 ^ (num' / den).log2 * den ≤ num' / den * den :=
              Nat.mul_le_mul_right den (Nat.log2_self_le nonzero)
          _ ≤ num' := Nat.div_mul_le_self num' den
      have first : p.step (num / den) ∣ 2 ^ (num' / den).log2 := Nat.pow_dvd_pow 2 (by omega)
      have second : p.step (num' / den) ∣ 2 ^ (num' / den).log2 := Nat.pow_dvd_pow 2 (by omega)
      exact Nat.le_trans (roundToMultiple_le (cell _) first below)
        (le_roundToMultiple (cell _) second above)
    · rw [step, step, same]
      exact roundToMultiple_mono _ den le
  rw [round, round]
  split
  next small =>
    split
    next => exact Magnitude.finite_le.mpr rounded
    next => exact Magnitude.le_infinite _
  next large =>
    split
    next small => exact absurd (Nat.lt_of_le_of_lt rounded small) large
    next => exact Magnitude.le_infinite _

/-- A product with what is beyond all magnitudes is so itself, or has no value. -/
theorem mul_infinite_cases (a : Magnitude) :
    (p.mul a .infinite = .infinite ∨ p.mul a .infinite = .undefined) ∧
      p.mul .infinite a = p.mul a .infinite := by
  cases a with
  | infinite => exact ⟨.inl rfl, rfl⟩
  | undefined => exact ⟨.inr rfl, rfl⟩
  | finite a =>
      cases a with
      | zero => exact ⟨.inr rfl, rfl⟩
      | succ a => exact ⟨.inl rfl, rfl⟩

variable (wide : 0 < p.bits)

include wide

theorem add_mono {a a' b b' : Magnitude} (first : a ≤ a') (second : b ≤ b') :
    p.add a b ≤ p.add a' b' := by
  cases first with
  | undefined => exact Magnitude.undefined_le _
  | infinite =>
      cases second with
      | undefined => cases a <;> exact Magnitude.undefined_le _
      | infinite => exact Magnitude.le_infinite _
      | finite => exact Magnitude.le_infinite _
  | finite first =>
      cases second with
      | undefined => exact Magnitude.undefined_le _
      | infinite => exact Magnitude.le_infinite _
      | finite second => exact round_mono wide (by decide) (Nat.add_le_add first second)

/-- Products keep the order as long as the larger one has a value. -/
theorem mul_mono {a a' b b' : Magnitude} (first : a ≤ a') (second : b ≤ b')
    (valued : p.mul a' b' ≠ .undefined) : p.mul a b ≤ p.mul a' b' := by
  cases first with
  | undefined => exact Magnitude.undefined_le _
  | infinite =>
      obtain ⟨beyond | none, swapped⟩ := mul_infinite_cases (p := p) b'
      · rw [swapped, beyond]
        exact Magnitude.le_infinite _
      · exact absurd (swapped.trans none) valued
  | finite first =>
      cases second with
      | undefined => exact Magnitude.undefined_le _
      | finite second =>
          exact round_mono wide (Nat.two_pow_pos _) (Nat.mul_le_mul first second)
      | infinite =>
          rcases (mul_infinite_cases (p := p) (.finite _)).1 with beyond | none
          · rw [beyond]
            exact Magnitude.le_infinite _
          · exact absurd none valued

theorem divide_mono {a a' : Magnitude} {divisor : Nat} (positive : 0 < divisor) (le : a ≤ a') :
    p.divide a divisor ≤ p.divide a' divisor := by
  cases le with
  | undefined => exact Magnitude.undefined_le _
  | infinite => exact Magnitude.le_infinite _
  | finite le => exact round_mono wide positive le

end Order

theorem convert_mono {p q : Precision} (wide : 0 < q.bits) {a a' : Magnitude} (le : a ≤ a') :
    p.convert q a ≤ p.convert q a' := by
  cases le with
  | undefined => exact Magnitude.undefined_le _
  | infinite => exact Magnitude.le_infinite _
  | finite le => exact round_mono wide (Nat.two_pow_pos _) (Nat.mul_le_mul_right _ le)

theorem nearestWhole_mono {p : Precision} (ceiling : Nat) {a a' : Magnitude} (le : a ≤ a') :
    p.nearestWhole ceiling a ≤ p.nearestWhole ceiling a' := by
  cases le with
  | undefined => exact Nat.zero_le _
  | infinite =>
      cases a with
      | infinite => exact Nat.le_refl _
      | finite a => exact Nat.min_le_right _ _
      | undefined => exact Nat.zero_le _
  | @finite a a' le =>
      have quotients : (2 * a + 2 ^ p.scale) / 2 ^ (p.scale + 1) ≤
          (2 * a' + 2 ^ p.scale) / 2 ^ (p.scale + 1) := Nat.div_le_div_right (by omega)
      exact Nat.le_min.mpr
        ⟨Nat.le_trans (Nat.min_le_left _ _) quotients, Nat.min_le_right _ _⟩

end Precision

end Swatch
