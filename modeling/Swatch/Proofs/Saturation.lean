/-
Module: Swatch.Proofs.Saturation
Purpose: Rounding never falls below a power of two that the exact number reaches, so a run of
  digits that spells too much for a component is read as the largest one, however long it is.
Main exports:
  Precision.Reaches, Precision.round_reaches, Clamped, clamped_wholeValue, level_digitsNumeral
-/
import Swatch.Color.Resolve
import Swatch.Proofs.Exact

namespace Swatch

/-!
### Powers of two

A long run of digits is rounded at every digit, and the exact value is lost.  What a component
needs of it is only that it stays at 256 or more.  Powers of two are kept by every rounding: the
grid at a number is never wider than the power of two below it.
-/

/-- A multiple of the step that is not above a number is not above its rounding. -/
theorem le_roundToMultiple {step num den units : Nat} (positive : 0 < den * step)
    (grid : step ∣ units) (below : units * den ≤ num) :
    units ≤ roundToMultiple step num den := by
  obtain ⟨count, rfl⟩ := grid
  have quotient : count ≤ num / (den * step) := by
    rw [Nat.le_div_iff_mul_le positive]
    calc count * (den * step) = step * count * den := by ac_rfl
      _ ≤ num := below
  have up (choice : Bool) : num / (den * step) ≤
      if choice then num / (den * step) + 1 else num / (den * step) := by
    cases choice with
    | true => exact Nat.le_succ _
    | false => exact Nat.le_refl _
  calc step * count = count * step := Nat.mul_comm _ _
    _ ≤ roundToMultiple step num den := Nat.mul_le_mul_right step (Nat.le_trans quotient (up _))

namespace Precision

/-- What is rounded has a value. -/
theorem round_ne_undefined (p : Precision) (num den : Nat) : p.round num den ≠ .undefined := by
  rw [round]
  split <;> simp

theorem ofRatio_ne_undefined (p : Precision) (num den : Nat) :
    p.ofRatio num den ≠ .undefined :=
  p.round_ne_undefined _ _

theorem mul_finite_ne_undefined (p : Precision) (a b : Nat) :
    p.mul (.finite a) (.finite b) ≠ .undefined :=
  p.round_ne_undefined _ _

/-- The magnitude is at least a power of two. -/
def Reaches (p : Precision) (k : Nat) : Magnitude → Prop
  | .finite units => 2 ^ (k + p.scale) ≤ units
  | .infinite => True
  | .undefined => False

section Reaches

variable {p : Precision} {k : Nat}

/-- A power of two that a number reaches is on the grid of the number or below it. -/
theorem round_reaches (wide : 0 < p.bits) {num den : Nat} (positive : 0 < den)
    (large : 2 ^ (k + p.scale) * den ≤ num) : p.Reaches k (p.round num den) := by
  have units : 2 ^ (k + p.scale) ≤ num / den := (Nat.le_div_iff_mul_le positive).mpr large
  have nonzero : num / den ≠ 0 := Nat.ne_of_gt (Nat.lt_of_lt_of_le (Nat.two_pow_pos _) units)
  have step : 0 < p.step (num / den) := Nat.pow_pos (by decide)
  have power : k + p.scale ≤ (num / den).log2 := (Nat.le_log2 nonzero).mpr units
  have grid : p.step (num / den) ∣ 2 ^ (num / den).log2 := Nat.pow_dvd_pow 2 (by omega)
  have below : 2 ^ (num / den).log2 * den ≤ num :=
    calc 2 ^ (num / den).log2 * den ≤ num / den * den :=
          Nat.mul_le_mul_right den (Nat.log2_self_le nonzero)
      _ ≤ num := Nat.div_mul_le_self num den
  have kept := le_roundToMultiple (Nat.mul_pos positive step) grid below
  rw [round]
  split
  next =>
    calc 2 ^ (k + p.scale) ≤ 2 ^ (num / den).log2 := Nat.pow_le_pow_right (by decide) power
      _ ≤ roundToMultiple (p.step (num / den)) num den := kept
  next => trivial

theorem add_reaches (wide : 0 < p.bits) {a b : Magnitude} (large : p.Reaches k a)
    (valued : b ≠ .undefined) : p.Reaches k (p.add a b) := by
  cases a with
  | undefined => cases large
  | infinite =>
      cases b with
      | finite b => trivial
      | infinite => trivial
      | undefined => exact absurd rfl valued
  | finite a =>
      cases b with
      | infinite => trivial
      | undefined => exact absurd rfl valued
      | finite b =>
          apply round_reaches wide (by decide)
          rw [Nat.mul_one]
          exact Nat.le_trans large (Nat.le_add_right a b)

/-- A product by a positive whole number. -/
theorem mul_whole_reaches (wide : 0 < p.bits) {a : Magnitude} {n : Nat} (positive : 0 < n)
    (large : p.Reaches k a) : p.Reaches k (p.mul a (p.whole n)) := by
  have factor : 2 ^ p.scale ≤ n * 2 ^ p.scale := Nat.le_mul_of_pos_left _ positive
  cases a with
  | finite a =>
      apply round_reaches wide (Nat.pow_pos (by decide))
      exact Nat.mul_le_mul large factor
  | undefined => cases large
  | infinite =>
      have nonzero : n * 2 ^ p.scale ≠ 0 :=
        Nat.ne_of_gt (Nat.lt_of_lt_of_le (Nat.two_pow_pos _) factor)
      rw [whole]
      cases units : n * 2 ^ p.scale with
      | zero => exact absurd units nonzero
      | succ m => trivial

theorem convert_reaches {q : Precision} (wide : 0 < q.bits) {a : Magnitude}
    (large : p.Reaches k a) : q.Reaches k (p.convert q a) := by
  cases a with
  | infinite => trivial
  | undefined => cases large
  | finite a =>
      apply round_reaches wide (Nat.pow_pos (by decide))
      calc 2 ^ (k + q.scale) * 2 ^ p.scale = 2 ^ (k + p.scale) * 2 ^ q.scale := by
            rw [← Nat.pow_add, ← Nat.pow_add, Nat.add_right_comm]
        _ ≤ a * 2 ^ q.scale := Nat.mul_le_mul_right _ large

/-- What reaches 256 is the largest component. -/
theorem nearestWhole_of_reaches {a : Magnitude} (large : p.Reaches 8 a) :
    p.nearestWhole 255 a = 255 := by
  cases a with
  | infinite => rfl
  | undefined => cases large
  | finite a =>
      have quotient : 255 ≤ (2 * a + 2 ^ p.scale) / 2 ^ (p.scale + 1) := by
        rw [Nat.le_div_iff_mul_le (Nat.two_pow_pos _)]
        have units : 2 ^ (8 + p.scale) ≤ a := large
        rw [Nat.pow_add] at units
        rw [Nat.pow_succ]
        omega
      exact Nat.min_eq_right quotient

/-- A whole number is the nearest to itself. -/
theorem nearestWhole_whole (n : Nat) : p.nearestWhole 255 (p.whole n) = min n 255 := by
  have quotient : (2 * (n * 2 ^ p.scale) + 2 ^ p.scale) / 2 ^ (p.scale + 1) = n := by
    have half : 2 * (n * 2 ^ p.scale) + 2 ^ p.scale = 2 ^ p.scale + n * 2 ^ (p.scale + 1) := by
      rw [Nat.pow_succ, ← Nat.mul_assoc n, Nat.mul_comm 2, Nat.add_comm]
    rw [half, Nat.add_mul_div_right _ _ (Nat.two_pow_pos _),
      Nat.div_eq_of_lt (Nat.pow_lt_pow_succ (by decide)), Nat.zero_add]
  exact congrArg (min · 255) quotient

end Reaches

end Precision

/-!
### Runs of digits
-/

/-- A number and a magnitude that holds it: exactly below 256, and at 256 or more otherwise. -/
def Clamped (p : Precision) (n : Nat) (a : Magnitude) : Prop :=
  (n < 256 ∧ a = p.whole n) ∨ (256 ≤ n ∧ p.Reaches 8 a)

theorem reaches_whole {p : Precision} {n : Nat} (large : 256 ≤ n) : p.Reaches 8 (p.whole n) := by
  show 2 ^ (8 + p.scale) ≤ n * 2 ^ p.scale
  rw [Nat.pow_add]
  exact Nat.mul_le_mul_right _ large

/-- One more digit keeps a number clamped. -/
theorem clamped_add_digit {n : Nat} {a : Magnitude} {c : Char} (digit : c.isDigit = true)
    (clamped : Clamped double n a) :
    Clamped double (10 * n + digitValue c)
      (double.add (double.mul a (exactly 10)) (exactly (digitValue c))) := by
  have small : digitValue c < 10 := by
    rw [isDigit_iff] at digit
    show c.toNat - 48 < 10
    omega
  rcases clamped with ⟨below, rfl⟩ | ⟨above, large⟩
  · have sum := add_digit_whole (m := n) (c := c) (by omega)
    rw [sum]
    by_cases bound : 10 * n + digitValue c < 256
    · exact Or.inl ⟨bound, rfl⟩
    · exact Or.inr ⟨by omega, reaches_whole (by omega)⟩
  · have ten : exactly 10 = double.whole 10 :=
      Precision.ofRatio_whole (p := double) (by decide) (by decide)
    have product : double.Reaches 8 (double.mul a (exactly 10)) := by
      rw [ten]
      exact Precision.mul_whole_reaches (by decide) (by decide) large
    exact Or.inr ⟨by omega,
      Precision.add_reaches (by decide) product (Precision.ofRatio_ne_undefined _ _ _)⟩

/-- A run of digits is read as the number it spells, as far as a component can hold it. -/
theorem clamped_wholeValue {digits : Text} (all : ∀ c ∈ digits, c.isDigit = true) :
    Clamped double (digitsValue digits) (wholeValue digits) := by
  have run (n : Nat) (a : Magnitude) (clamped : Clamped double n a) :
      Clamped double (digits.foldl (fun n c => 10 * n + digitValue c) n)
        (digits.foldl (fun a c =>
          double.add (double.mul a (exactly 10)) (exactly (digitValue c))) a) := by
    induction digits generalizing n a with
    | nil => exact clamped
    | cons c digits ih =>
        apply ih (fun d member => all d (List.mem_cons_of_mem c member))
        exact clamped_add_digit (all c List.mem_cons_self) clamped
  have zero : double.whole 0 = .finite 0 := by rw [Precision.whole, Nat.zero_mul]
  have start : Clamped double 0 (.finite 0) := Or.inl ⟨by decide, zero.symm⟩
  exact run 0 (.finite 0) start

/-- The component that a run of digits spells is its number, cut off at 255. -/
theorem level_digitsNumeral {digits : Text} (all : ∀ c ∈ digits, c.isDigit = true) :
    (digitsNumeral digits).level = Channel.ofNat (min (digitsValue digits) 255) := by
  have unsigned : (digitsNumeral digits).negative = false := rfl
  rw [Numeral.level, unsigned]
  apply congrArg Channel.ofNat
  rcases clamped_wholeValue all with ⟨below, -⟩ | ⟨above, large⟩
  · rw [digitsNumeral_size (by omega)]
    exact Precision.nearestWhole_whole _
  · have fraction : fractionValue [] ≠ .undefined := nofun
    have sum : double.Reaches 8 (Written.magnitude ⟨none, digits, none, none⟩) :=
      Precision.add_reaches (by decide) large fraction
    have converted : single.Reaches 8 (digitsNumeral digits).size :=
      Precision.convert_reaches (by decide) sum
    rw [Precision.nearestWhole_of_reaches converted]
    omega

end Swatch
