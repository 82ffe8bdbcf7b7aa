/-
Module: Swatch.Proofs.Opacity
Purpose: How far the number that is computed for a decimal is off it, and from which decimals on an
  opacity counts as full.
Main exports:
  fractionAmount, Written.value, le_fractionValue, fractionValue_le, FillsBetween, share_number,
  share_percentage
-/
import Mathlib.Algebra.Order.Field.Rat
import Mathlib.Tactic.FieldSimp
import Mathlib.Tactic.Linarith
import Mathlib.Tactic.Positivity
import Mathlib.Tactic.Ring
import Swatch.Proofs.Monotone
import Swatch.Proofs.Notation

namespace Swatch

/-!
### The number that a decimal spells
-/

/-- The number that digits behind a point spell. -/
def fractionAmount : Text → ℚ
  | [] => 0
  | c :: digits => (digitValue c + fractionAmount digits) / 10

/-- The number that a decimal without an exponent spells, its sign left out. -/
def Written.size (w : Written) : ℚ :=
  digitsValue w.whole + fractionAmount (w.fraction.getD [])

/-- The number that a decimal without an exponent spells. -/
def Written.value (w : Written) : ℚ := if w.sign = some '-' then -w.size else w.size

theorem digitValue_le {c : Char} (digit : c.isDigit = true) : digitValue c ≤ 9 := by
  rw [isDigit_iff] at digit
  show c.toNat - 48 ≤ 9
  omega

theorem fractionAmount_bounds {digits : Text} (all : ∀ c ∈ digits, c.isDigit = true) :
    0 ≤ fractionAmount digits ∧ fractionAmount digits ≤ 1 := by
  induction digits with
  | nil => simp [fractionAmount]
  | cons c digits ih =>
      obtain ⟨first, others⟩ := List.forall_mem_cons.mp all
      obtain ⟨low, high⟩ := ih others
      have digit : (digitValue c : ℚ) ≤ 9 := by exact_mod_cast digitValue_le first
      have positive : (0 : ℚ) ≤ digitValue c := Nat.cast_nonneg _
      rw [fractionAmount]
      constructor
      · positivity
      · rw [div_le_one (by norm_num)]
        linarith

/-- Digits behind others count by their place. -/
theorem fractionAmount_append (front back : Text) :
    fractionAmount (front ++ back) =
      fractionAmount front + fractionAmount back / 10 ^ front.length := by
  induction front with
  | nil => simp [fractionAmount]
  | cons c front ih =>
      rw [List.cons_append, fractionAmount, fractionAmount, ih, List.length_cons, pow_succ]
      ring

/-!
### What is computed
-/

/-- A magnitude that is off a number by no more than `error`. -/
def Precision.Near (p : Precision) (m : Magnitude) (x error : ℚ) : Prop :=
  ∃ units : Nat, m = .finite units ∧ |(units : ℚ) / 2 ^ p.scale - x| ≤ error

/-- Numbers of units compared without division. -/
theorem abs_div_sub_div_le {units unit num den parts : Nat} (unitPos : 0 < unit)
    (denPos : 0 < den) (partsPos : 0 < parts)
    (above : units * den * parts ≤ num * unit * parts + unit * den)
    (below : num * unit * parts ≤ units * den * parts + unit * den) :
    |(units : ℚ) / unit - num / den| ≤ 1 / parts := by
  have u : (0 : ℚ) < unit := by exact_mod_cast unitPos
  have d : (0 : ℚ) < den := by exact_mod_cast denPos
  have k : (0 : ℚ) < parts := by exact_mod_cast partsPos
  have upper : (units * den * parts : ℚ) ≤ num * unit * parts + unit * den := by
    exact_mod_cast above
  have lower : (num * unit * parts : ℚ) ≤ units * den * parts + unit * den := by
    exact_mod_cast below
  have apart : (units : ℚ) / unit - num / den = (units * den - num * unit) / (unit * den) := by
    rw [div_sub_div _ _ u.ne' d.ne', mul_comm (unit : ℚ) num]
  rw [apart, abs_le, le_div_iff₀ (mul_pos u d), div_le_iff₀ (mul_pos u d), div_mul_eq_mul_div,
    ← neg_div, div_mul_eq_mul_div, one_mul, div_le_iff₀ k, le_div_iff₀ k]
  constructor
  · linarith
  · linarith

/-- What is not above two is not rounded above it, so it is finite. -/
theorem Precision.exists_round_of_le_two {p : Precision} (fits : p.bits ≤ p.limit)
    (wide : 2 ≤ p.bits) {n : Nat} (bound : n ≤ 2 * 2 ^ p.scale) :
    ∃ c, p.round n 1 = .finite c := by
  have two : p.round (2 * 2 ^ p.scale) 1 = p.whole 2 := by
    have fewer : 2 < 2 ^ p.bits :=
      calc 2 < 2 ^ 2 := by decide
        _ ≤ 2 ^ p.bits := Nat.pow_le_pow_right (by decide) wide
    have rounded := round_whole fits 1 (by decide) fewer
    rwa [Nat.mul_one] at rounded
  have order : p.round n 1 ≤ p.round (2 * 2 ^ p.scale) 1 :=
    round_mono (by omega) (by decide) bound
  rw [two] at order
  cases rounded : p.round n 1 with
  | finite c => exact ⟨c, rfl⟩
  | undefined => exact absurd rounded (p.round_ne_undefined n 1)
  | infinite =>
      rw [rounded] at order
      cases order

/-- The last place of what is not above two counts no more than that of two. -/
theorem Precision.step_le_of_le_two {p : Precision} (wide : 2 ≤ p.bits)
    (deep : p.bits ≤ p.scale + 1) {n : Nat} (bound : n ≤ 2 * 2 ^ p.scale) :
    p.step n * 2 ^ (p.bits - 1) ≤ 2 * 2 ^ p.scale := by
  have place : n.log2 ≤ p.scale + 1 := by
    have order := log2_mono bound
    rwa [← Nat.pow_succ', Nat.log2_two_pow] at order
  rw [← Nat.pow_succ', Precision.step]
  calc 2 ^ (n.log2 + 1 - p.bits) * 2 ^ (p.bits - 1) =
        2 ^ (n.log2 + 1 - p.bits + (p.bits - 1)) := (Nat.pow_add ..).symm
    _ ≤ 2 ^ (p.scale + 1) := Nat.pow_le_pow_right (by decide) (by omega)

/-- A sum of at most two is rounded by no more than half of its last place. -/
theorem Precision.near_add {p : Precision} (fits : p.bits ≤ p.limit) (wide : 2 ≤ p.bits)
    (deep : p.bits ≤ p.scale + 1) {a b : Magnitude} {x y e f : ℚ} (first : p.Near a x e)
    (second : p.Near b y f) (small : x + y + e + f ≤ 2) :
    p.Near (p.add a b) (x + y) (e + f + 1 / 2 ^ (p.bits - 1)) := by
  obtain ⟨a, rfl, first⟩ := first
  obtain ⟨b, rfl, second⟩ := second
  rw [abs_le] at first second
  have unit : (0 : ℚ) < 2 ^ p.scale := by positivity
  have sum : ((a + b : Nat) : ℚ) / 2 ^ p.scale =
      (a : ℚ) / 2 ^ p.scale + (b : ℚ) / 2 ^ p.scale := by
    push_cast
    ring
  have bound : a + b ≤ 2 * 2 ^ p.scale := by
    have cast : ((a + b : Nat) : ℚ) / 2 ^ p.scale ≤ 2 := by
      rw [sum]
      linarith
    rw [div_le_iff₀ unit] at cast
    exact_mod_cast cast
  obtain ⟨c, found⟩ : ∃ c, p.add (.finite a) (.finite b) = .finite c :=
    exists_round_of_le_two fits wide bound
  obtain ⟨above, below⟩ := round_error (p := p) (by decide) found
  have step : p.step ((a + b) / 1) * 2 ^ (p.bits - 1) ≤ 2 * 2 ^ p.scale := by
    rw [Nat.div_one]
    exact step_le_of_le_two wide deep bound
  have close : |(c : ℚ) / (2 ^ p.scale : Nat) - (a + b : Nat) / (2 ^ p.scale : Nat)| ≤
      1 / (2 ^ (p.bits - 1) : Nat) := by
    have parts := Nat.two_pow_pos (p.bits - 1)
    generalize p.step ((a + b) / 1) = width at above below step
    generalize 2 ^ (p.bits - 1) = k at step parts ⊢
    have positive := Nat.two_pow_pos p.scale
    generalize 2 ^ p.scale = u at step positive ⊢
    refine abs_div_sub_div_le positive positive parts ?_ ?_
    · have order : c * k ≤ (a + b) * k + u := by nlinarith
      nlinarith
    · have order : (a + b) * k ≤ c * k + u := by nlinarith
      nlinarith
  refine ⟨c, found, ?_⟩
  rw [Nat.cast_pow, Nat.cast_pow, Nat.cast_ofNat, sum, abs_le] at close
  rw [abs_le]
  constructor
  · linarith
  · linarith

/-- The weight of a place behind the point, as it is computed. -/
def weight : Nat → Magnitude
  | 0 => double.ofRatio 1 10
  | n + 1 => double.mul (weight n) (double.ofRatio 1 10)

/-- Adds digits to a sum, the first of them at the place `n`. -/
def fractionFrom (sum : Magnitude) (n : Nat) : Text → Magnitude
  | [] => sum
  | c :: digits =>
    fractionFrom (double.add sum (double.mul (exactly (digitValue c)) (weight n))) (n + 1) digits

theorem fractionValue_eq (digits : Text) :
    fractionValue digits = fractionFrom (.finite 0) 0 digits := by
  have run (sum : Magnitude) (n : Nat) :
      (digits.foldl (fun state c =>
        (double.add state.1 (double.mul (exactly (digitValue c)) state.2),
          double.mul state.2 (double.ofRatio 1 10))) (sum, weight n)).1 =
        fractionFrom sum n digits := by
    induction digits generalizing sum n with
    | nil => rfl
    | cons c digits ih => exact ih _ (n + 1)
  exact run (.finite 0) 0

theorem fractionFrom_append (sum : Magnitude) (n : Nat) (front back : Text) :
    fractionFrom sum n (front ++ back) =
      fractionFrom (fractionFrom sum n front) (n + front.length) back := by
  induction front generalizing sum n with
  | nil => rfl
  | cons c front ih =>
      rw [List.cons_append, fractionFrom, fractionFrom, ih, List.length_cons, Nat.add_right_comm,
        Nat.add_assoc]

/-- The units of a magnitude that has any. -/
def Magnitude.units : Magnitude → Nat
  | .finite units => units
  | .infinite => 0
  | .undefined => 0

/-- In the first places a digit is computed as what it counts, but for a few last bits. -/
theorem near_digit {n d : Nat} (place : n < 17) (digit : d < 10) :
    double.Near (double.mul (exactly d) (weight n)) (d / 10 ^ (n + 1)) (1 / 2 ^ 52) := by
  have all : ∀ n < 17, ∀ d < 10,
      double.mul (exactly d) (weight n) =
          .finite (double.mul (exactly d) (weight n)).units ∧
        (double.mul (exactly d) (weight n)).units * 10 ^ (n + 1) * 2 ^ 52 ≤
          d * 2 ^ double.scale * 2 ^ 52 + 2 ^ double.scale * 10 ^ (n + 1) ∧
        d * 2 ^ double.scale * 2 ^ 52 ≤
          (double.mul (exactly d) (weight n)).units * 10 ^ (n + 1) * 2 ^ 52 +
            2 ^ double.scale * 10 ^ (n + 1) := by
    decide +kernel
  obtain ⟨found, above, below⟩ := all n place d digit
  refine ⟨_, found, ?_⟩
  have close := abs_div_sub_div_le (Nat.two_pow_pos double.scale) (Nat.pow_pos (by decide))
    (Nat.two_pow_pos 52) above below
  rw [Nat.cast_pow, Nat.cast_pow, Nat.cast_pow] at close
  exact close

/-- Digits of the first places are added up to what they count, but for a few last bits each. -/
theorem near_fractionFrom {digits : Text} (all : ∀ c ∈ digits, c.isDigit = true)
    {sum : Magnitude} {n : Nat} {x e : ℚ} (near : double.Near sum x e)
    (places : n + digits.length ≤ 17) (small : x + fractionAmount digits / 10 ^ n ≤ 1)
    (exact : e + digits.length / 2 ^ 51 ≤ 1) :
    double.Near (fractionFrom sum n digits) (x + fractionAmount digits / 10 ^ n)
      (e + digits.length / 2 ^ 51) := by
  induction digits generalizing sum n x e with
  | nil => simpa [fractionFrom, fractionAmount] using near
  | cons c digits ih =>
      obtain ⟨first, others⟩ := List.forall_mem_cons.mp all
      obtain ⟨positive, -⟩ := fractionAmount_bounds others
      rw [List.length_cons] at places exact ⊢
      push_cast at exact ⊢
      have digit := near_digit (n := n) (d := digitValue c) (by omega)
        (Nat.lt_succ_of_le (digitValue_le first))
      have place : fractionAmount (c :: digits) / 10 ^ n =
          digitValue c / 10 ^ (n + 1) + fractionAmount digits / 10 ^ (n + 1) := by
        rw [fractionAmount, pow_succ]
        field_simp
      have rest : 0 ≤ fractionAmount digits / 10 ^ (n + 1) := by positivity
      rw [place] at small ⊢
      have room : x + digitValue c / 10 ^ (n + 1) + e + 1 / 2 ^ 52 ≤ 2 := by
        have length : (0 : ℚ) ≤ digits.length := Nat.cast_nonneg _
        linarith
      have added : double.Near _ _ _ :=
        Precision.near_add (p := double) (by decide) (by decide) (by decide) near digit room
      have bits : double.bits - 1 = 52 := rfl
      rw [bits] at added
      have whole := ih others added (n := n + 1) (by omega) (by linarith) (by linarith)
      rw [fractionFrom]
      convert whole using 1
      · ring
      · ring

/-!
### Bounds of a fraction
-/

/-- More than what a digit behind the first places adds. -/
def trifle : Magnitude := .finite (2 ^ 1019)

/-- From a place on at which the weight falls, it does not get above what it is there. -/
theorem weight_le {m n : Nat} (valued : weight (m + 1) ≠ .undefined)
    (falls : weight (m + 1) ≤ weight m) (place : m ≤ n) : weight n ≤ weight m := by
  induction n, place using Nat.le_induction with
  | base => exact Magnitude.le_refl _
  | succ n place ih =>
      calc weight (n + 1) ≤ weight (m + 1) :=
            Precision.mul_mono (by decide) ih (Magnitude.le_refl _) valued
        _ ≤ weight m := falls

/-- Behind the first places a digit adds next to nothing. -/
theorem mul_weight_le {n d : Nat} (place : 17 ≤ n) (digit : d ≤ 9) :
    double.mul (exactly d) (weight n) ≤ trifle := by
  have digits : ∀ d ≤ 9, exactly d ≤ exactly 9 := by decide +kernel
  calc double.mul (exactly d) (weight n) ≤ double.mul (exactly 9) (weight 17) :=
        Precision.mul_mono (by decide) (digits d digit)
          (weight_le (by decide +kernel) (by decide +kernel) place) (by decide +kernel)
    _ ≤ trifle := by decide +kernel

/-- The weight of a place is a number, however small. -/
theorem exists_weight (n : Nat) : ∃ units, weight n = .finite units := by
  have tenth : double.ofRatio 1 10 = .finite (double.ofRatio 1 10).units := by decide +kernel
  induction n with
  | zero => exact ⟨_, tenth⟩
  | succ n ih =>
      obtain ⟨units, found⟩ := ih
      have bound : weight (n + 1) ≤ weight 0 :=
        weight_le (by decide +kernel) (by decide +kernel) (Nat.zero_le _)
      have valued : weight (n + 1) ≠ .undefined := by
        rw [weight, found, tenth]
        exact Precision.mul_finite_ne_undefined _ _ _
      rw [weight, tenth] at bound
      cases size : weight (n + 1) with
      | finite units => exact ⟨units, rfl⟩
      | undefined => exact absurd size valued
      | infinite =>
          rw [size] at bound
          cases bound

/-- What a digit adds has a value. -/
theorem zero_le_mul_weight {d : Nat} (digit : d ≤ 9) (n : Nat) :
    .finite 0 ≤ double.mul (exactly d) (weight n) := by
  obtain ⟨units, found⟩ := exists_weight n
  have whole : exactly d = double.whole d :=
    Precision.ofRatio_whole (p := double) (by decide) (Nat.lt_of_le_of_lt digit (by decide))
  rw [whole, found]
  exact Magnitude.zero_le (Precision.mul_finite_ne_undefined _ _ _)

/-- A sum that has reached a magnitude does not fall below it again. -/
theorem le_fractionFrom {bound sum : Magnitude} (kept : double.add bound (.finite 0) = bound)
    (reached : bound ≤ sum) (n : Nat) {digits : Text} (all : ∀ c ∈ digits, c.isDigit = true) :
    bound ≤ fractionFrom sum n digits := by
  induction digits generalizing sum n with
  | nil => exact reached
  | cons c digits ih =>
      obtain ⟨first, others⟩ := List.forall_mem_cons.mp all
      refine ih ?_ (n + 1) others
      calc bound = double.add bound (.finite 0) := kept.symm
        _ ≤ double.add sum (double.mul (exactly (digitValue c)) (weight n)) :=
            Precision.add_mono (by decide) reached (zero_le_mul_weight (digitValue_le first) n)

/-- A sum that is not above a magnitude does not get above it by trifles. -/
theorem fractionFrom_le {bound sum : Magnitude} (kept : double.add bound trifle ≤ bound)
    (below : sum ≤ bound) {n : Nat} (place : 17 ≤ n) {digits : Text}
    (all : ∀ c ∈ digits, c.isDigit = true) : fractionFrom sum n digits ≤ bound := by
  induction digits generalizing sum n with
  | nil => exact below
  | cons c digits ih =>
      obtain ⟨first, others⟩ := List.forall_mem_cons.mp all
      refine ih ?_ (n := n + 1) (by omega) others
      calc double.add sum (double.mul (exactly (digitValue c)) (weight n)) ≤
            double.add bound trifle :=
              Precision.add_mono (by decide) below (mul_weight_le place (digitValue_le first))
        _ ≤ bound := kept

section Bounds

variable {digits : Text} (all : ∀ c ∈ digits, c.isDigit = true)

include all

/-- The first digits of a fraction are computed almost exactly, and those behind them hardly
count. -/
theorem near_front :
    double.Near (fractionFrom (.finite 0) 0 (digits.take 17)) (fractionAmount digits)
      (1 / 2 ^ 40) := by
  have front : ∀ c ∈ digits.take 17, c.isDigit = true :=
    fun c member => all c (List.mem_of_mem_take member)
  have back : ∀ c ∈ digits.drop 17, c.isDigit = true :=
    fun c member => all c (List.mem_of_mem_drop member)
  have length : (digits.take 17).length ≤ 17 := by
    rw [List.length_take]
    omega
  have places : ((digits.take 17).length : ℚ) ≤ 17 := by exact_mod_cast length
  obtain ⟨-, most⟩ := fractionAmount_bounds front
  have start : double.Near (.finite 0) 0 0 := ⟨0, rfl, by simp⟩
  obtain ⟨units, found, close⟩ :=
    near_fractionFrom front start (n := 0) (by omega) (by simpa using most) (by linarith)
  have split : fractionAmount digits = fractionAmount (digits.take 17) +
      fractionAmount (digits.drop 17) / 10 ^ (digits.take 17).length := by
    rw [← fractionAmount_append, List.take_append_drop]
  -- What is cut off is less than the last place of what is kept, if anything is cut off at all.
  have rest : 0 ≤ fractionAmount (digits.drop 17) / 10 ^ (digits.take 17).length ∧
      fractionAmount (digits.drop 17) / 10 ^ (digits.take 17).length ≤ 1 / 10 ^ 17 := by
    obtain ⟨low, high⟩ := fractionAmount_bounds back
    refine ⟨by positivity, ?_⟩
    by_cases short : digits.length ≤ 17
    · rw [List.drop_eq_nil_of_le short]
      simp [fractionAmount]
    · have full : (digits.take 17).length = 17 := by
        rw [List.length_take]
        omega
      rw [full]
      exact div_le_div_of_nonneg_right high (by positivity)
  have zero : (10 : ℚ) ^ 0 = 1 := pow_zero _
  rw [abs_le, zero, div_one, zero_add, zero_add] at close
  refine ⟨units, found, ?_⟩
  rw [abs_le, split]
  constructor
  · linarith
  · linarith

/-- A fraction that is above a magnitude is not computed below it. -/
theorem le_fractionValue {bound : Nat}
    (kept : double.add (.finite bound) (.finite 0) = .finite bound)
    (above : (bound : ℚ) / 2 ^ double.scale + 1 / 2 ^ 40 ≤ fractionAmount digits) :
    .finite bound ≤ fractionValue digits := by
  obtain ⟨units, found, close⟩ := near_front all
  have unit : (0 : ℚ) < 2 ^ double.scale := by positivity
  have reached : bound ≤ units := by
    rw [abs_le] at close
    have order : (bound : ℚ) / 2 ^ double.scale ≤ units / 2 ^ double.scale := by linarith
    rw [div_le_div_iff_of_pos_right unit] at order
    exact_mod_cast order
  rw [fractionValue_eq, ← List.take_append_drop 17 digits, fractionFrom_append, found]
  exact le_fractionFrom kept (Magnitude.finite_le.mpr reached) _
    fun c member => all c (List.mem_of_mem_drop member)

/-- A fraction has a value. -/
theorem zero_le_fractionValue : .finite 0 ≤ fractionValue digits := by
  rw [fractionValue_eq]
  exact le_fractionFrom (by decide +kernel) (Magnitude.le_refl _) 0 all

/-- A fraction that is below a magnitude is not computed above it. -/
theorem fractionValue_le {bound : Nat}
    (kept : double.add (.finite bound) trifle ≤ .finite bound)
    (below : fractionAmount digits + 1 / 2 ^ 40 ≤ (bound : ℚ) / 2 ^ double.scale) :
    fractionValue digits ≤ .finite bound := by
  obtain ⟨units, found, close⟩ := near_front all
  have unit : (0 : ℚ) < 2 ^ double.scale := by positivity
  have reached : units ≤ bound := by
    rw [abs_le] at close
    have order : (units : ℚ) / 2 ^ double.scale ≤ bound / 2 ^ double.scale := by linarith
    rw [div_le_div_iff_of_pos_right unit] at order
    exact_mod_cast order
  rw [fractionValue_eq, ← List.take_append_drop 17 digits, fractionFrom_append, found]
  by_cases short : digits.length ≤ 17
  · rw [List.drop_eq_nil_of_le short]
    exact Magnitude.finite_le.mpr reached
  · have full : 17 ≤ 0 + (digits.take 17).length := by
      rw [List.length_take]
      omega
    exact fractionFrom_le kept (Magnitude.finite_le.mpr reached) full
      fun c member => all c (List.mem_of_mem_drop member)

end Bounds

/-!
### Bounds of a decimal
-/

/-- A number that a component holds is not above what is computed for a run of digits that spells
at least that number. -/
theorem whole_le_wholeValue {digits : Text} (all : ∀ c ∈ digits, c.isDigit = true) {k : Nat}
    (small : k ≤ 2 ^ 8) (reached : k ≤ digitsValue digits) :
    double.whole k ≤ wholeValue digits := by
  rcases clamped_wholeValue all with ⟨-, found⟩ | ⟨-, large⟩
  · rw [found]
    exact Magnitude.finite_le.mpr (Nat.mul_le_mul_right _ reached)
  · cases found : wholeValue digits with
    | infinite => exact Magnitude.le_infinite _
    | undefined =>
        rw [found] at large
        cases large
    | finite units =>
        rw [found] at large
        have least : 2 ^ (8 + double.scale) ≤ units := large
        rw [pow_add] at least
        exact Magnitude.finite_le.mpr (Nat.le_trans (Nat.mul_le_mul_right _ small) least)

/-- A number is not below what is computed for digits that spell no more. -/
theorem wholeValue_le {digits : Text} {k : Nat} (small : k < 2 ^ 53)
    (bound : digitsValue digits ≤ k) : wholeValue digits ≤ double.whole k := by
  rw [wholeValue_eq (Nat.lt_of_le_of_lt bound small)]
  exact Magnitude.finite_le.mpr (Nat.mul_le_mul_right _ bound)

/-- A bound of all fractions. -/
def aboveOne : Nat := 2 ^ double.scale + 2 ^ (double.scale - 40)

theorem fractionValue_le_aboveOne {digits : Text} (all : ∀ c ∈ digits, c.isDigit = true) :
    fractionValue digits ≤ .finite aboveOne := by
  have kept : double.add (.finite aboveOne) trifle ≤ .finite aboveOne := by decide +kernel
  refine fractionValue_le all kept ?_
  have power : (2 : ℚ) ^ double.scale = 2 ^ (double.scale - 40) * 2 ^ 40 := by
    rw [← pow_add]
    exact congrArg (2 ^ ·) rfl
  have unit : (0 : ℚ) < 2 ^ (double.scale - 40) := by positivity
  have cast : (aboveOne : ℚ) = 2 ^ double.scale + 2 ^ (double.scale - 40) := by
    rw [aboveOne]
    push_cast
    rfl
  have quotient : (aboveOne : ℚ) / 2 ^ double.scale = 1 + 1 / 2 ^ 40 := by
    rw [cast, power]
    field_simp
  rw [quotient]
  linarith [(fractionAmount_bounds all).2]

/-- A level that grows with a number, and that is full above one of two bounds behind the same
whole part but not below the other. -/
structure FillsBetween (level : Magnitude → Nat) (k low high : Nat) : Prop where
  mono : ∀ {a b : Magnitude}, a ≤ b → level a ≤ level b
  small : k < 2 ^ 8
  proper : low ≤ 2 ^ double.scale
  keepsLow : double.add (.finite low) trifle ≤ .finite low
  keepsHigh : double.add (.finite high) (.finite 0) = .finite high
  before : 0 < k → level (double.add (double.whole (k - 1)) (.finite aboveOne)) < 255
  below : level (double.add (double.whole k) (.finite low)) < 255
  above : 255 ≤ level (double.add (double.whole k) (.finite high))
  behind : 255 ≤ level (double.whole (k + 1))

section Levels

variable {level : Magnitude → Nat} {k low high : Nat} (fills : FillsBetween level k low high)
  {w : Written} (proper : w.Spelled) (plain : w.exponent = none)

include proper in
theorem Written.Spelled.digits : ∀ c ∈ w.fraction.getD [], c.isDigit = true := by
  cases found : w.fraction with
  | none => exact List.forall_mem_nil _
  | some digits => exact (proper.fraction digits found).2

include plain in
theorem Written.magnitude_plain :
    w.magnitude = double.add (wholeValue w.whole) (fractionValue (w.fraction.getD [])) := by
  rw [magnitude, plain]

include fills proper plain

/-- A decimal above the upper bound fills the level. -/
theorem FillsBetween.full
    (reached : k + (high : ℚ) / 2 ^ double.scale + 1 / 2 ^ 40 ≤ w.size) :
    255 ≤ level w.magnitude := by
  obtain ⟨-, most⟩ := fractionAmount_bounds proper.digits
  have wide : 0 < double.bits := by decide
  have positive : (0 : ℚ) ≤ high / 2 ^ double.scale := by positivity
  rw [Written.size] at reached
  rw [Written.magnitude_plain plain]
  have least : k ≤ digitsValue w.whole := by
    have cast : (k : ℚ) < digitsValue w.whole + 1 := by linarith
    exact Nat.le_of_lt_succ (by exact_mod_cast cast)
  rcases Nat.lt_or_eq_of_le least with more | same
  · have sum : double.add (double.whole (k + 1)) (.finite 0) = double.whole (k + 1) := by
      have small : k + 1 + 0 < 2 ^ 53 := Nat.lt_trans (Nat.succ_lt_succ fills.small) (by decide)
      have added := Precision.add_whole (p := double) (by decide) small
      rwa [Precision.whole, Precision.whole, Nat.zero_mul] at added
    have order := Precision.add_mono wide (whole_le_wholeValue proper.whole fills.small more)
      (zero_le_fractionValue proper.digits)
    rw [sum] at order
    exact Nat.le_trans fills.behind (fills.mono order)
  · have fraction := le_fractionValue proper.digits fills.keepsHigh
      (by rw [same] at reached; linarith)
    have whole := whole_le_wholeValue proper.whole (Nat.le_of_lt fills.small) least
    exact Nat.le_trans fills.above (fills.mono (Precision.add_mono wide whole fraction))

/-- A decimal below the lower bound does not fill the level. -/
theorem FillsBetween.short
    (below : w.size + 1 / 2 ^ 40 ≤ k + (low : ℚ) / 2 ^ double.scale) :
    level w.magnitude < 255 := by
  obtain ⟨least, -⟩ := fractionAmount_bounds proper.digits
  have wide : 0 < double.bits := by decide
  have small : k < 2 ^ 53 := Nat.lt_trans fills.small (by decide)
  have unit : (0 : ℚ) < 2 ^ double.scale := by positivity
  have fraction : (low : ℚ) / 2 ^ double.scale ≤ 1 := by
    rw [div_le_one unit]
    exact_mod_cast fills.proper
  rw [Written.size] at below
  rw [Written.magnitude_plain plain]
  have most : digitsValue w.whole ≤ k := by
    have cast : (digitsValue w.whole : ℚ) < k + 1 := by linarith
    exact Nat.le_of_lt_succ (by exact_mod_cast cast)
  rcases Nat.lt_or_eq_of_le most with fewer | same
  · have whole : wholeValue w.whole ≤ double.whole (k - 1) := wholeValue_le (by omega) (by omega)
    exact Nat.lt_of_le_of_lt (fills.mono (Precision.add_mono wide whole
      (fractionValue_le_aboveOne proper.digits))) (fills.before (by omega))
  · have fraction := fractionValue_le proper.digits fills.keepsLow
      (by rw [same] at below; linarith)
    exact Nat.lt_of_le_of_lt (fills.mono (Precision.add_mono wide (wholeValue_le small most)
      fraction)) fills.below

end Levels

/-!
### Opacities
-/

/-- The level of a share. -/
def shareLevel (size : Magnitude) : Nat :=
  single.nearestWhole 255 (single.mul size (single.ofRatio 255 1))

theorem shareLevel_mono {a b : Magnitude} (le : a ≤ b) : shareLevel a ≤ shareLevel b := by
  have factor : single.ofRatio 255 1 = single.whole 255 :=
    Precision.ofRatio_whole (p := single) (by decide) (by decide)
  rw [shareLevel, shareLevel, factor]
  apply Precision.nearestWhole_mono
  cases b with
  | undefined =>
      cases le
      exact Magnitude.le_refl _
  | infinite => exact Precision.mul_mono (by decide) le (Magnitude.le_refl _) (by decide +kernel)
  | finite units =>
      exact Precision.mul_mono (by decide) le (Magnitude.le_refl _)
        (Precision.mul_finite_ne_undefined _ _ _)

/-- A share is full if it is not negative and its level is the highest one. -/
theorem share_eq_highest_iff {n : Numeral} :
    n.share = .highest ↔ n.negative = false ∧ 255 ≤ shareLevel n.size := by
  have bound : shareLevel n.size ≤ 255 := by
    rw [shareLevel]
    cases single.mul n.size (single.ofRatio 255 1) with
    | finite units => exact Nat.min_le_right _ _
    | infinite => exact Nat.le_refl _
    | undefined => exact Nat.zero_le _
  rw [Numeral.share]
  cases n.negative with
  | true =>
      have apart : Channel.lowest ≠ Channel.highest := by decide
      simp [apart]
  | false =>
      have same : Channel.ofNat (shareLevel n.size) = Channel.ofNat 255 ↔
          255 ≤ shareLevel n.size := by
        rw [Channel.ofNat, Channel.ofNat, Fin.mk.injEq]
        omega
      exact same.trans (by simp)

/-- The share of a number jumps at half a step below one, which is `33488637 / 2 ^ 25`. -/
theorem fills_number :
    FillsBetween (fun m => shareLevel (double.convert single m)) 0 (33488637 * 2 ^ 1049)
      ((33488637 * 2 ^ 20 + 1) * 2 ^ 1029) where
  mono := fun le => shareLevel_mono (Precision.convert_mono (by decide) le)
  small := by decide
  proper := by decide +kernel
  keepsLow := by decide +kernel
  keepsHigh := by decide +kernel
  before := fun positive => absurd positive (Nat.lt_irrefl 0)
  below := by decide +kernel
  above := by decide +kernel
  behind := by decide +kernel

/-- The share of a percentage jumps at a hundred times that, up to the rounding of the quotient. -/
theorem fills_percentage :
    FillsBetween (fun m => shareLevel (double.convert single (double.divide m 100))) 99
      (883914571700 * 2 ^ 1034) (883914571800 * 2 ^ 1034) where
  mono := fun le => shareLevel_mono (Precision.convert_mono (by decide)
    (Precision.divide_mono (by decide) (by decide) le))
  small := by decide
  proper := by decide +kernel
  keepsLow := by decide +kernel
  keepsHigh := by decide +kernel
  before := fun _ => by decide +kernel
  below := by decide +kernel
  above := by decide +kernel
  behind := by decide +kernel

section Shares

variable {w : Written} (proper : w.Spelled)

include proper

theorem Written.Spelled.size_nonneg : 0 ≤ w.size := by
  obtain ⟨least, -⟩ := fractionAmount_bounds proper.digits
  rw [Written.size]
  positivity

/-- A sign only tells whether a number is negative. -/
theorem Written.Spelled.value_cases :
    (w.sign = some '-' ∧ w.value ≤ 0) ∨ (w.sign ≠ some '-' ∧ w.value = w.size) := by
  have least := proper.size_nonneg
  rw [Written.value]
  split
  next negative => exact .inl ⟨negative, by linarith⟩
  next positive => exact .inr ⟨positive, rfl⟩

variable (plain : w.exponent = none) {n : Numeral} (sign : n.negative = decide (w.sign = some '-'))

include plain sign

/-- What a level tells about a decimal tells its share, if it is the level of the share. -/
theorem FillsBetween.share {level : Magnitude → Nat} {k low high : Nat}
    (fills : FillsBetween level k low high) (same : shareLevel n.size = level w.magnitude) :
    (k + (high : ℚ) / 2 ^ double.scale + 1 / 2 ^ 40 ≤ w.value → n.share = .highest) ∧
      (w.value + 1 / 2 ^ 40 ≤ k + (low : ℚ) / 2 ^ double.scale → n.share ≠ .highest) := by
  rw [ne_eq, share_eq_highest_iff, same, sign]
  rcases proper.value_cases with ⟨negative, most⟩ | ⟨positive, spelled⟩
  · have least : (0 : ℚ) < k + (high : ℚ) / 2 ^ double.scale + 1 / 2 ^ 40 := by positivity
    exact ⟨fun reached => absurd reached (by linarith), fun _ full => by simp [negative] at full⟩
  · rw [spelled]
    constructor
    · intro reached
      exact ⟨decide_eq_false positive, fills.full proper plain reached⟩
    · rintro below ⟨-, reached⟩
      exact absurd reached (Nat.not_le_of_lt (fills.short proper plain below))

end Shares

/-- A number of units as a fraction. -/
theorem units_div {n e : Nat} (le : e ≤ double.scale) :
    ((n * 2 ^ e : Nat) : ℚ) / 2 ^ double.scale = n / 2 ^ (double.scale - e) := by
  have power : (2 : ℚ) ^ double.scale = 2 ^ (double.scale - e) * 2 ^ e := by
    rw [← pow_add, Nat.sub_add_cancel le]
  have unit : (2 : ℚ) ^ e ≠ 0 := by positivity
  rw [power, Nat.cast_mul, Nat.cast_pow, Nat.cast_ofNat, mul_div_mul_right _ _ unit]

section Decimals

variable {w : Written} (proper : w.Spelled) (plain : w.exponent = none)

include proper plain

/-- A number is a full share from half a step below one on. -/
theorem share_number :
    (9980391562 / 10 ^ 10 ≤ w.value → w.number.share = .highest) ∧
      (w.value ≤ 9980391561 / 10 ^ 10 → w.number.share ≠ .highest) := by
  obtain ⟨full, short⟩ := fills_number.share proper plain (n := w.number) rfl rfl
  rw [units_div (by decide)] at full short
  have high : double.scale - 1029 = 45 := rfl
  have low : double.scale - 1049 = 25 := rfl
  rw [high] at full
  rw [low] at short
  exact ⟨fun reached => full (by push_cast; linarith), fun below => short (by push_cast; linarith)⟩

/-- A percentage is a full share from a hundred times that on. -/
theorem share_percentage :
    (9980391562 / 10 ^ 10 ≤ w.value / 100 → w.percentage.share = .highest) ∧
      (w.value / 100 ≤ 9980391561 / 10 ^ 10 → w.percentage.share ≠ .highest) := by
  obtain ⟨full, short⟩ := fills_percentage.share proper plain (n := w.percentage) rfl rfl
  rw [units_div (by decide)] at full short
  have scale : double.scale - 1034 = 40 := rfl
  rw [scale] at full short
  exact ⟨fun reached => full (by push_cast; linarith), fun below => short (by push_cast; linarith)⟩

end Decimals

end Swatch
