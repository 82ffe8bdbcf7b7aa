/-
Module: Swatch.Proofs.Digits
Purpose: Whole numbers below a million are printed in their digits, although the digits are found
  with rounded powers of ten.
Main exports:
  Interval.Encloses, Interval.exists_cutFrom, exists_scaledDecimal, sheetText_whole,
  digitsNumeral_text
-/
import Swatch.Proofs.Exact

namespace Swatch

/-!
### Cutting off zeros
-/

namespace Interval

variable {i : Interval} {one n : Nat}

/-- The interval is narrower than `one` and holds `n * one`. -/
def Encloses (i : Interval) (one n : Nat) : Prop :=
  ∃ above, i.upper = n * one + above ∧ above < i.width ∧ i.width < one

/-- A multiple of a small unit is a number of larger ones. -/
theorem Encloses.mul {count : Nat} (encloses : i.Encloses one (n * count))
    (positive : 0 < count) : i.Encloses (count * one) n := by
  obtain ⟨above, upper, inside, narrow⟩ := encloses
  refine ⟨above, by rw [upper, Nat.mul_assoc], inside, ?_⟩
  exact Nat.lt_of_lt_of_le narrow (Nat.le_mul_of_pos_left one positive)

/-- On a grid that is wider than the interval no digit is lowered. -/
theorem lowered_of_narrow {grid : Nat} (narrow : i.width < grid) (most digits below : Nat) :
    i.lowered grid most digits below = digits := by
  cases most with
  | zero => rfl
  | succ most =>
      have outside : ¬(below + grid ≤ i.width ∧ 2 * below + grid < 2 * i.offset) := by omega
      rw [lowered, if_neg outside]

/-- What is cut off of the upper end are digits of the number and what is above it. -/
theorem upper_split {above power : Nat} (upper : i.upper = n * one + above) (inside : above < one)
    (positive : 0 < power) :
    i.upper / (one * power) = n / power ∧
      i.upper % (one * power) = n % power * one + above := by
  have cell : 0 < one * power := Nat.mul_pos (Nat.zero_lt_of_lt inside) positive
  rw [Nat.div_mod_unique cell]
  constructor
  · have digits : n * one = n % power * one + one * power * (n / power) := by
      rw [Nat.mul_assoc, Nat.mul_comm (n % power), ← Nat.mul_add, Nat.mod_add_div, Nat.mul_comm]
    omega
  · calc n % power * one + above
        < n % power * one + one := Nat.add_lt_add_left inside _
      _ = (n % power + 1) * one := by rw [Nat.add_mul, Nat.one_mul]
      _ ≤ power * one := Nat.mul_le_mul_right one (Nat.mod_lt n positive)
      _ = one * power := Nat.mul_comm power one

section Cut

variable {unit low : Nat} (encloses : i.Encloses (unit * 10 ^ (low + 1)) n)

include encloses

/-- At each place a number is cut off if that leaves all of its digits, and otherwise the next
lower place is tried. -/
theorem cutFrom_digits (more : Nat) :
    i.cutFrom unit (low + more + 1) =
      if 10 ^ more ∣ n then (n / 10 ^ more, low + more + 1) else i.cutFrom unit (low + more) := by
  obtain ⟨above, upper, inside, narrow⟩ := encloses
  have power : 0 < 10 ^ more := Nat.pow_pos (by decide)
  obtain ⟨digits, below⟩ := upper_split upper (Nat.lt_trans inside narrow) power
  have coarse : i.width < unit * 10 ^ (low + 1) * 10 ^ more :=
    Nat.lt_of_lt_of_le narrow (Nat.le_mul_of_pos_right _ power)
  have grid : unit * Nat.pow 10 (low + more + 1) = unit * 10 ^ (low + 1) * 10 ^ more := by
    rw [Nat.mul_assoc, ← Nat.pow_add, Nat.add_right_comm]
    rfl
  rw [cutFrom, grid, digits, below, lowered_of_narrow coarse]
  by_cases zeros : 10 ^ more ∣ n
  · rw [if_pos zeros, Nat.mod_eq_zero_of_dvd zeros, Nat.zero_mul, Nat.zero_add,
      decide_eq_true inside, Bool.true_or, if_pos rfl]
  · have left : 0 < n % 10 ^ more :=
      Nat.pos_of_ne_zero fun none => zeros (Nat.dvd_of_mod_eq_zero none)
    have outside : i.width < n % 10 ^ more * (unit * 10 ^ (low + 1)) + above :=
      Nat.lt_of_lt_of_le narrow
        (Nat.le_trans (Nat.le_mul_of_pos_left _ left) (Nat.le_add_right _ above))
    rw [if_neg zeros, decide_eq_false (Nat.not_lt_of_lt outside),
      beq_eq_false_iff_ne.mpr (Nat.ne_of_gt outside), Bool.false_and, Bool.or_false,
      if_neg Bool.false_ne_true]

/-- A whole number in a narrow interval is cut off at a place that leaves all of its digits but
zeros at their end. -/
theorem exists_cutFrom (more : Nat) :
    ∃ zeros ≤ more, 10 ^ zeros ∣ n ∧
      i.cutFrom unit (low + more + 1) = (n / 10 ^ zeros, low + zeros + 1) := by
  induction more with
  | zero =>
      refine ⟨0, Nat.le_refl 0, Nat.one_dvd n, ?_⟩
      exact (cutFrom_digits encloses 0).trans (if_pos (Nat.one_dvd n))
  | succ more ih =>
      rw [cutFrom_digits encloses (more + 1)]
      by_cases zeros : 10 ^ (more + 1) ∣ n
      · exact ⟨more + 1, Nat.le_refl _, zeros, if_pos zeros⟩
      · obtain ⟨fewer, bound, dvd, cut⟩ := ih
        exact ⟨fewer, Nat.le_succ_of_le bound, dvd, (if_neg zeros).trans cut⟩

end Cut

end Interval

/-!
### Scaling
-/

/-- The interval of a significand of 32 bits, once it is multiplied by a power of ten, in units of
the ninth place behind the point. -/
def Scaled.around (ten : Scaled) (middle below : Nat) : Interval :=
  let value (n : Nat) : Nat := (n * ten.significand + 0x80000000) / 0x100000000
  let upper := value (middle + 128) - 1
  let lower := value (middle - below) + 1
  ⟨upper * 1000000000, (upper - lower) * 1000000000, (upper - value middle) * 1000000000⟩

/-- The decimal of a magnitude with a full significand is what is cut off of its interval. -/
theorem scaledDecimal_of_cut {units significand digits place : Nat} {exponent : Int}
    (split : units / single.step units = significand) (bits : significand.log2 = 23)
    (start : (units.log2 + 1 : Nat) - 32 - (single.scale : Int) = exponent)
    (found : ((Scaled.tenTo (scalingPower exponent)).around (significand * 256)
      (if significand = 0x800000 then 64 else 128)).cutFrom
        (Nat.pow 2 (-(exponent + (Scaled.tenTo (scalingPower exponent)).exponent + 32)).toNat) 18 =
          (digits, place)) :
    scaledDecimal units = .ofScientific digits (place - 9 - scalingPower exponent) := by
  have shift : Nat.pow 2 (32 - (23 + 1)) = 256 := rfl
  have half : Nat.pow 2 (32 - (23 + 1) - 1) = 128 := rfl
  have quarter : 128 / 2 = 64 := rfl
  have least : Nat.pow 2 (single.bits - 1) = 0x800000 := rfl
  have parts : Nat.pow 10 9 = 1000000000 := rfl
  -- The definition is unfolded without its argument, and the pair stays a pair: otherwise the
  -- equation would be checked by cutting digits off a number that is not known.
  obtain ⟨function, same⟩ : ∃ function, function = scaledDecimal := ⟨_, rfl⟩
  rw [← same]
  delta scaledDecimal at same
  rw [same]
  simp only [Scaled.around] at found
  simp -iota only [split, bits, start, shift, half, quarter, least, parts, Scaled.times]
  rw [found]

/-- The fourth power of ten fits into 32 bits, so scaling by it is exact. -/
theorem encloses_around_four {value below : Nat} (positive : 0 < value)
    (half : below = 64 ∨ below = 128) :
    ((Scaled.tenTo 4).around (value * 2 ^ 14) below).Encloses (10 ^ 13) value := by
  have ten : Scaled.tenTo 4 = ⟨2621440000, -18⟩ := by decide
  refine ⟨77000000000, ?_⟩
  simp only [ten, Scaled.around]
  omega

/-- The inverse of the fourth power is rounded, but by less than the interval is wide. -/
theorem encloses_around_negFour {value below : Nat} (large : 2 ^ 31 ≤ value * 2 ^ 12)
    (bound : value * 2 ^ 12 < 2 ^ 32) (half : below = 64 ∨ below = 128) :
    ((Scaled.tenTo (-4)).around (value * 2 ^ 12) below).Encloses (2 ^ 25 * 10 ^ 5) value := by
  have ten : Scaled.tenTo (-4) = ⟨3518437209, -45⟩ := by decide
  refine ⟨((Scaled.tenTo (-4)).around (value * 2 ^ 12) below).upper - value * (2 ^ 25 * 10 ^ 5), ?_⟩
  simp only [ten, Scaled.around]
  omega

/-!
### Whole numbers
-/

section Whole

variable {n : Nat} (positive : n ≠ 0)

include positive

/-- The decimal of a whole number is the number itself, if the interval encloses it. -/
theorem exists_scaledDecimal_of_encloses {power : Int} {low more unit : Nat} (high : n.log2 < 20)
    (scaling : scalingPower ((n.log2 : Int) - 31) = power)
    (weight : Nat.pow 2 (-((n.log2 : Int) - 31 + (Scaled.tenTo power).exponent + 32)).toNat = unit)
    (point : (low + 1 : Nat) = 9 + power) (last : low + more + 1 = 18)
    (encloses : ∀ below, below = 64 ∨ below = 128 →
      ((Scaled.tenTo power).around (n * 2 ^ (31 - n.log2)) below).Encloses
        (unit * 10 ^ (low + 1)) n) :
    ∃ zeros : Nat, zeros ≤ more ∧ 10 ^ zeros ∣ n ∧
      scaledDecimal (n * 2 ^ 149) = .ofScientific (n / 10 ^ zeros) zeros := by
  have log : (n * 2 ^ 149).log2 = n.log2 + 149 := log2_mul_two_pow positive 149
  have step : single.step (n * 2 ^ 149) = 2 ^ (n.log2 + 126) := by
    rw [Precision.step, log]
    rfl
  have split : n * 2 ^ 149 / single.step (n * 2 ^ 149) = n * 2 ^ (23 - n.log2) := by
    have whole : 2 ^ 149 = 2 ^ (23 - n.log2) * 2 ^ (n.log2 + 126) := by
      rw [← Nat.pow_add]
      congr 1
      omega
    rw [step, whole, ← Nat.mul_assoc, Nat.mul_div_cancel _ (Nat.two_pow_pos _)]
  have bits : (n * 2 ^ (23 - n.log2)).log2 = 23 := by
    rw [log2_mul_two_pow positive]
    omega
  have start : ((n * 2 ^ 149).log2 + 1 : Nat) - 32 - (single.scale : Int) =
      (n.log2 : Int) - 31 := by
    have scale : (single.scale : Int) = 149 := rfl
    rw [log, scale]
    omega
  have middle : n * 2 ^ (31 - n.log2) = n * 2 ^ (23 - n.log2) * 256 := by
    have shift : 31 - n.log2 = 23 - n.log2 + 8 := by omega
    rw [shift, Nat.pow_add, Nat.mul_assoc]
  have half : (if n * 2 ^ (23 - n.log2) = 0x800000 then 64 else 128) = 64 ∨
      (if n * 2 ^ (23 - n.log2) = 0x800000 then 64 else 128) = 128 := by
    split
    next => exact .inl rfl
    next => exact .inr rfl
  obtain ⟨zeros, bound, dvd, cut⟩ := Interval.exists_cutFrom (encloses _ half) more
  subst scaling weight
  rw [last, middle] at cut
  refine ⟨zeros, bound, dvd, ?_⟩
  rw [scaledDecimal_of_cut split bits start cut]
  congr 1
  omega

/-- Numbers of at most 16 bits are scaled exactly. -/
theorem exists_scaledDecimal_short (short : n.log2 < 16) :
    ∃ zeros : Nat, zeros ≤ 5 ∧ 10 ^ zeros ∣ n ∧
      scaledDecimal (n * 2 ^ 149) = .ofScientific (n / 10 ^ zeros) zeros := by
  have scaling : ∀ log < 16, scalingPower ((log : Nat) - 31 : Int) = 4 := by decide
  have exponent : (Scaled.tenTo 4).exponent = -18 := by decide
  have place : (-((n.log2 : Int) - 31 + (Scaled.tenTo 4).exponent + 32)).toNat = 17 - n.log2 := by
    rw [exponent]
    omega
  have point : (12 + 1 : Nat) = 9 + (4 : Int) := rfl
  have last : 12 + 5 + 1 = 18 := rfl
  refine exists_scaledDecimal_of_encloses positive (by omega) (scaling _ short)
    (congrArg (Nat.pow 2) place) point last ?_
  intro below half
  have middle : n * 2 ^ (31 - n.log2) = n * 2 ^ (17 - n.log2) * 2 ^ 14 := by
    have shift : 31 - n.log2 = 17 - n.log2 + 14 := by omega
    rw [shift, Nat.pow_add, Nat.mul_assoc]
  have power : 0 < 2 ^ (17 - n.log2) := Nat.two_pow_pos _
  have value : 0 < n * 2 ^ (17 - n.log2) := Nat.mul_pos (Nat.pos_of_ne_zero positive) power
  rw [middle]
  exact (encloses_around_four value half).mul power

/-- Longer numbers are scaled with a rounding, which does not reach their digits. -/
theorem exists_scaledDecimal_long (high : n.log2 < 20) (long : 16 ≤ n.log2) :
    ∃ zeros : Nat, zeros ≤ 13 ∧ 10 ^ zeros ∣ n ∧
      scaledDecimal (n * 2 ^ 149) = .ofScientific (n / 10 ^ zeros) zeros := by
  have scaling : ∀ log < 20, 16 ≤ log → scalingPower ((log : Nat) - 31 : Int) = -4 := by decide
  have exponent : (Scaled.tenTo (-4)).exponent = -45 := by decide
  have place : (-((n.log2 : Int) - 31 + (Scaled.tenTo (-4)).exponent + 32)).toNat =
      44 - n.log2 := by
    rw [exponent]
    omega
  have point : (4 + 1 : Nat) = 9 + (-4 : Int) := rfl
  have last : 4 + 13 + 1 = 18 := rfl
  refine exists_scaledDecimal_of_encloses positive high (scaling _ high long)
    (congrArg (Nat.pow 2) place) point last ?_
  intro below half
  have middle : n * 2 ^ (31 - n.log2) = n * 2 ^ (19 - n.log2) * 2 ^ 12 := by
    have shift : 31 - n.log2 = 19 - n.log2 + 12 := by omega
    rw [shift, Nat.pow_add, Nat.mul_assoc]
  have weight : Nat.pow 2 (44 - n.log2) = 2 ^ (19 - n.log2) * 2 ^ 25 := by
    rw [← Nat.pow_add]
    congr 1
    omega
  have least : 2 ^ 31 ≤ n * 2 ^ (31 - n.log2) := by
    calc 2 ^ 31
        = 2 ^ n.log2 * 2 ^ (31 - n.log2) := by
          rw [← Nat.pow_add, Nat.add_sub_cancel' (by omega)]
      _ ≤ n * 2 ^ (31 - n.log2) := Nat.mul_le_mul_right _ (Nat.log2_self_le positive)
  have most : n * 2 ^ (31 - n.log2) < 2 ^ 32 := by
    calc n * 2 ^ (31 - n.log2)
        < 2 ^ (n.log2 + 1) * 2 ^ (31 - n.log2) :=
          Nat.mul_lt_mul_of_pos_right Nat.lt_log2_self (Nat.two_pow_pos _)
      _ = 2 ^ 32 := by
          rw [← Nat.pow_add]
          congr 1
          omega
  rw [middle] at least most
  rw [middle, weight, Nat.mul_assoc (2 ^ (19 - n.log2))]
  exact (encloses_around_negFour least most half).mul (Nat.two_pow_pos _)

/-- The decimal of a whole number below a million is the number itself. -/
theorem exists_scaledDecimal (small : n < 10 ^ 6) :
    ∃ zeros : Nat, zeros ≤ 13 ∧ 10 ^ zeros ∣ n ∧
      scaledDecimal (n * 2 ^ 149) = .ofScientific (n / 10 ^ zeros) zeros := by
  by_cases short : n.log2 < 16
  · obtain ⟨zeros, few, whole⟩ := exists_scaledDecimal_short positive short
    exact ⟨zeros, Nat.le_trans few (by decide), whole⟩
  · have high : n.log2 < 20 := (Nat.log2_lt positive).mpr (Nat.lt_trans small (by decide))
    exact exists_scaledDecimal_long positive high (Nat.le_of_not_lt short)

end Whole

/-!
### Digits
-/

theorem natural_mul_ten {m : Nat} (positive : 0 < m) :
    natural (10 * m) = natural m ++ ['0'] := by
  have digits := Nat.toDigits_append_toDigits (b := 10) (n := m) (d := 0) (by decide) positive
    (by decide)
  exact digits.symm

/-- Zeros at the end of a number are zeros at the end of its digits. -/
theorem natural_mul_pow {m : Nat} (positive : 0 < m) (zeros : Nat) :
    natural (m * 10 ^ zeros) = natural m ++ List.replicate zeros '0' := by
  induction zeros with
  | zero => simp
  | succ zeros ih =>
      have more : m * 10 ^ (zeros + 1) = 10 * (m * 10 ^ zeros) := by
        rw [Nat.pow_succ, ← Nat.mul_assoc, Nat.mul_comm]
      have product : 0 < m * 10 ^ zeros := Nat.mul_pos positive (Nat.pow_pos (by decide))
      rw [more, natural_mul_ten product, ih, List.append_assoc, List.replicate_succ']

/-- A decimal of at most six digits with zeros behind them is written as a whole number. -/
theorem text_ofScientific {m zeros : Nat} (small : m < 10 ^ 6) (few : zeros ≤ 13) :
    (Decimal.ofScientific m zeros).text Layout.sheet =
      natural m ++ List.replicate zeros '0' := by
  have count : digitCount m ≤ 6 := (Nat.length_toDigits_le_iff (by decide) (by decide)).mpr small
  have least : 0 < digitCount m := Nat.length_toDigits_pos
  have excess : digitCount m - Layout.sheet.mostDigits = 0 := Nat.sub_eq_zero_of_le count
  have place : (digitCount m + zeros : Int) - (digitCount m : Nat) = (zeros : Nat) := by omega
  have plain : Layout.sheet.lowest < (digitCount m + zeros : Int) ∧
      (digitCount m + zeros : Int) ≤ Layout.sheet.highest := by
    have lowest : Layout.sheet.lowest = -6 := rfl
    have highest : Layout.sheet.highest = 21 := rfl
    rw [lowest, highest]
    omega
  have point : Layout.sheet.keepsPoint = false := rfl
  simp only [Decimal.ofScientific, Decimal.text, excess, Nat.sub_zero, if_pos, place]
  rw [if_pos plain, point, if_neg (by simp)]
  rfl

theorem sheetText_finite {units : Nat} (positive : units ≠ 0) :
    (Magnitude.finite units).sheetText = (scaledDecimal units).text Layout.sheet := by
  rw [Magnitude.sheetText.eq_def]
  split
  next same => exact absurd (Magnitude.finite.inj same) positive
  next others same => rw [Magnitude.finite.inj same]
  next same => cases same
  next same => cases same

/-- A whole number below a million is written in its digits. -/
theorem sheetText_whole {n : Nat} (small : n < 10 ^ 6) :
    (single.whole n).sheetText = natural n := by
  by_cases positive : n = 0
  · subst positive
    have zero : single.whole 0 = .finite 0 := by rw [Precision.whole, Nat.zero_mul]
    rw [zero]
    rfl
  · obtain ⟨zeros, few, ⟨m, rfl⟩, decimal⟩ := exists_scaledDecimal positive small
    have power : 0 < 10 ^ zeros := Nat.pow_pos (by decide)
    have least : 0 < m := Nat.pos_of_ne_zero fun zero => positive (by rw [zero, Nat.mul_zero])
    have fewer : m < 10 ^ 6 := Nat.lt_of_le_of_lt (Nat.le_mul_of_pos_left m power) small
    have scale : single.scale = 149 := rfl
    have units : 10 ^ zeros * m * 2 ^ 149 ≠ 0 :=
      Nat.mul_ne_zero positive (Nat.ne_of_gt (Nat.two_pow_pos 149))
    rw [Precision.whole, scale, sheetText_finite units, decimal, Nat.mul_div_cancel_left m power,
      text_ofScientific fewer few, Nat.mul_comm, natural_mul_pow least]

theorem digitsValue_natural (n : Nat) : digitsValue (natural n) = n := Nat.ofDigitChars_ten_toDigits

/-- A run of digits below a million is written without its leading zeros. -/
theorem digitsNumeral_text {digits : Text} (small : digitsValue digits < 10 ^ 6) :
    (digitsNumeral digits).text = natural (digitsValue digits) := by
  have size : (digitsNumeral digits).size = single.whole (digitsValue digits) :=
    digitsNumeral_size (Nat.lt_trans small (by decide))
  have whole : (digitsNumeral digits).integer.isNone = false := rfl
  have sign : (digitsNumeral digits).signText (single.whole (digitsValue digits)) = [] := rfl
  rw [Numeral.text, Numeral.textOf, size, sheetText_whole small, whole, sign, Bool.false_and,
    Bool.false_and, if_neg Bool.false_ne_true, List.append_nil, List.nil_append]

end Swatch
