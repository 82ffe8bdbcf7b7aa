/-
Module: Swatch.Number.Rounding
Purpose: Binary numbers of limited precision in exact integer arithmetic.
Main exports:
  Magnitude, Precision, Precision.round, Precision.add, Precision.mul, Precision.ofRatio,
  Precision.convert, double, single
-/
namespace Swatch

/-!
### Magnitudes

A style sheet number is read and printed in binary arithmetic of two widths, and what is
printed depends on every rounding on the way.  A magnitude is therefore a whole number of
the smallest units of its width, so that each operation is an exact integer operation
followed by one rounding.
-/

/-- A number without its sign, in the smallest units of some precision, or beyond all of
them.  Zero times what is beyond all of them has no value, nor has what is computed from it. -/
inductive Magnitude where
  | finite (units : Nat)
  | infinite
  | undefined
deriving DecidableEq, Repr, Inhabited

/-- A binary width: significands have `bits` digits, the smallest unit is `2 ^ (-scale)`,
and magnitudes from `2 ^ limit` on are infinite. -/
structure Precision where
  bits : Nat
  scale : Nat
  limit : Nat
deriving DecidableEq, Repr

/-- The 64-bit width. -/
def double : Precision := ⟨53, 1074, 1024⟩

/-- The 32-bit width. -/
def single : Precision := ⟨24, 149, 128⟩

/-- The multiple of `step` nearest to `num / den`, of two equally near ones the even
multiple. -/
def roundToMultiple (step num den : Nat) : Nat :=
  let quotient := num / (den * step)
  let rest := num % (den * step)
  let up := den * step < 2 * rest || (2 * rest == den * step && quotient % 2 == 1)
  (if up then quotient + 1 else quotient) * step

namespace Precision

/-- The distance of neighbouring magnitudes from `units` on: more bits than the significand
holds are not kept. -/
def step (p : Precision) (units : Nat) : Nat :=
  Nat.pow 2 (units.log2 + 1 - p.bits)

/-- The magnitude nearest to `num / den` units; a tie goes to the even significand. -/
def round (p : Precision) (num den : Nat) : Magnitude :=
  let units := roundToMultiple (p.step (num / den)) num den
  if units < Nat.pow 2 (p.limit + p.scale) then .finite units else .infinite

/-- The magnitude nearest to the number `num / den`. -/
def ofRatio (p : Precision) (num den : Nat) : Magnitude :=
  p.round (num * Nat.pow 2 p.scale) den

/-- The rounded sum. -/
def add (p : Precision) : Magnitude → Magnitude → Magnitude
  | .finite a, .finite b => p.round (a + b) 1
  | .undefined, _ => .undefined
  | _, .undefined => .undefined
  | _, _ => .infinite

/-- The rounded product.  An infinite magnitude has a product with every number but zero. -/
def mul (p : Precision) : Magnitude → Magnitude → Magnitude
  | .finite a, .finite b => p.round (a * b) (Nat.pow 2 p.scale)
  | .undefined, _ => .undefined
  | _, .undefined => .undefined
  | .finite 0, .infinite => .undefined
  | .infinite, .finite 0 => .undefined
  | _, _ => .infinite

/-- The rounded quotient by a positive number. -/
def divide (p : Precision) (a : Magnitude) (divisor : Nat) : Magnitude :=
  match a with
  | .finite a => p.round a divisor
  | .infinite => .infinite
  | .undefined => .undefined

/-- The magnitude of width `q` nearest to one of width `p`. -/
def convert (p q : Precision) : Magnitude → Magnitude
  | .finite a => q.round (a * Nat.pow 2 q.scale) (Nat.pow 2 p.scale)
  | .infinite => .infinite
  | .undefined => .undefined

/-- The power of ten nearest to `10 ^ exponent`, or to its inverse when `inverse`.  Four
hundred is beyond both ends of the 64-bit width. -/
def powerOfTen (p : Precision) (inverse : Bool) (exponent : Nat) : Magnitude :=
  let power := Nat.pow 10 (min exponent 400)
  if inverse then p.ofRatio 1 power else p.ofRatio power 1

/-- The whole part of a magnitude, at most `ceiling`.  It is zero where there is no value. -/
def truncate (p : Precision) (ceiling : Nat) : Magnitude → Nat
  | .finite a => min (a / Nat.pow 2 p.scale) ceiling
  | .infinite => ceiling
  | .undefined => 0

/-- The nearest whole number, a half going up, at most `ceiling`.  It is zero where there is no
value. -/
def nearestWhole (p : Precision) (ceiling : Nat) : Magnitude → Nat
  | .finite a => min ((2 * a + Nat.pow 2 p.scale) / Nat.pow 2 (p.scale + 1)) ceiling
  | .infinite => ceiling
  | .undefined => 0

/-- Whether a magnitude is a whole number. -/
def isWhole (p : Precision) : Magnitude → Bool
  | .finite a => a % Nat.pow 2 p.scale == 0
  | .infinite => false
  | .undefined => false

end Precision

end Swatch
