/-
Module: Swatch.Number.Decimal
Purpose: Positive decimals as digits and the place of the point, and the one with the fewest digits
  that reads back as a binary magnitude.
Main exports:
  Decimal, digitCount, Precision.readsBack, Precision.shortest
-/
import Swatch.Number.Rounding
import Swatch.Text.Basic

namespace Swatch

/-- The positive decimal `digits * 10 ^ (point - count)`, where `count` is the number of its
digits: `point` says how many of the digits stand before the decimal point. -/
structure Decimal where
  digits : Nat
  point : Int
deriving DecidableEq, Repr, Inhabited

/-- How many decimal digits a number has; zero has one. -/
def digitCount (n : Nat) : Nat := (natural n).length

/-- The decimal `digits * 10 ^ exponent`. -/
def Decimal.ofScientific (digits : Nat) (exponent : Int) : Decimal :=
  ⟨digits, digitCount digits + exponent⟩

/-!
### The interval of a magnitude

With `scale` decimal places every magnitude of a width is a whole number, because
`2 ^ (-scale) = 5 ^ scale * 10 ^ (-scale)`.  All decimals that read back as a magnitude
lie within half a step of it, and the ends belong to it when its significand is even.
-/

namespace Precision

/-- Whether the decimal `candidate` reads back as `units`.  Both sides are counted in
halves of the last of `scale` decimal places; below a power of two the step is half as
wide. -/
def readsBack (p : Precision) (units candidate : Nat) : Bool :=
  let unit := Nat.pow 5 p.scale
  let step := p.step units
  let below := if units == Nat.pow 2 units.log2 && 1 < step then step / 2 else step
  let even := (units / step) % 2 == 0
  let twice := 2 * candidate
  let exact := 2 * (units * unit)
  if exact ≤ twice then
    if even then twice ≤ exact + step * unit else twice < exact + step * unit
  else
    if even then exact ≤ twice + below * unit else exact < twice + below * unit

/-- The best decimal with `dropped` or fewer of its last places dropped.  On each grid only
the two neighbours of the exact value can be nearest; the first grid on which one of them
reads back wins, and of two the nearer, a tie going up. -/
def bestFrom (p : Precision) (units : Nat) : (dropped : Nat) → Nat × Nat
  | 0 => (units * Nat.pow 5 p.scale, 0)
  | dropped + 1 =>
    let exact := units * Nat.pow 5 p.scale
    let grid := Nat.pow 10 (dropped + 1)
    let lower := exact / grid
    let upper := lower + 1
    let lowerFits := 0 < lower && p.readsBack units (lower * grid)
    let upperFits := p.readsBack units (upper * grid)
    if lowerFits && (!upperFits || 2 * (exact % grid) < grid) then (lower, dropped + 1)
    else if upperFits then (upper, dropped + 1)
    else bestFrom p units dropped

/-- The shortest decimal that reads back as `units`, a positive magnitude. -/
def shortest (p : Precision) (units : Nat) : Decimal :=
  let (digits, dropped) := p.bestFrom units (digitCount (units * Nat.pow 5 p.scale))
  .ofScientific digits (dropped - p.scale)

end Precision

end Swatch
