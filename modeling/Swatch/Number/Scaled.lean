/-
Module: Swatch.Number.Scaled
Purpose: Decimal digits of a 32-bit magnitude, found with 32-bit significands throughout.
Main exports:
  Scaled, Scaled.times, Scaled.tenTo, Interval, Interval.cutFrom, scaledDecimal
-/
import Swatch.Number.Decimal
import Swatch.Number.Rounding

namespace Swatch

/-!
### Scaled numbers

A magnitude is multiplied by a power of ten that is itself rounded to 32 bits.  The interval
of what reads back as the magnitude is multiplied alongside and narrowed by one unit at both
ends, which outweighs all rounding.  Every decimal of the narrowed interval reads back, but
the shortest decimal of the full interval may lie outside of it: then there are more digits
than are needed.
-/

/-- The number `significand * 2 ^ exponent` with a significand of 32 bits. -/
structure Scaled where
  significand : Nat
  exponent : Int
deriving DecidableEq, Repr, Inhabited

namespace Scaled

/-- The product, its significand rounded to the nearest unit, a half going up. -/
def times (a b : Scaled) : Scaled :=
  ⟨(a.significand * b.significand + 0x80000000) / 0x100000000, a.exponent + b.exponent + 32⟩

/-- The scaled number nearest to a power of ten. -/
def tenTo : Int → Scaled
  | .ofNat n =>
    let power := Nat.pow 10 n
    let bits := power.log2 + 1
    ⟨roundToMultiple 1 (power * 0x100000000) (Nat.pow 2 bits), bits - 32⟩
  | .negSucc n =>
    let power := Nat.pow 10 (n + 1)
    let bits := power.log2 + 32
    ⟨roundToMultiple 1 (Nat.pow 2 bits) power, -bits⟩

end Scaled

/-- The least `n` with `2 ^ exponent ≤ 10 ^ n`, for exponents of at most three digits that
scaled numbers have. -/
def tensAbove (exponent : Int) : Int := -((-exponent * 30103) / 100000)

/-- The power of ten for numbers with this exponent: of every eighth power the least that
leaves at most 29 bits after the point.  Then at most nine digits stand before it. -/
def scalingPower (exponent : Int) : Int :=
  let least := tensAbove (-29 - exponent)
  least + (4 - least) % 8

/-!
### Cutting digits

The upper end of the interval is cut off after as few digits as the interval allows, and then
its last digit is lowered towards the magnitude.
-/

/-- An interval below `upper` that is `width` wide, and a number in it that is `offset` below
its upper end. -/
structure Interval where
  upper : Nat
  width : Nat
  offset : Nat
deriving DecidableEq, Repr, Inhabited

namespace Interval

/-- Lowers the last of the digits, at most `most` times, while that stays in the interval and
comes nearer to its number.  The digits are `below` under the upper end and count `grid`
each. -/
def lowered (i : Interval) (grid : Nat) : (most digits below : Nat) → Nat
  | 0, digits, _ => digits
  | most + 1, digits, below =>
    if below + grid ≤ i.width ∧ 2 * below + grid < 2 * i.offset then
      lowered i grid most (digits - 1) (below + grid)
    else digits

/-- The decimal that is cut off at the highest place, from `place` downwards, at which it
stays in the interval.  Nine places stand for the fraction, and `unit` is the weight of the
last one.  A cut right at the lower end only counts before the point. -/
def cutFrom (i : Interval) (unit : Nat) : (place : Nat) → Nat × Nat
  | 0 => (i.lowered unit 9 (i.upper / unit) (i.upper % unit), 0)
  | place + 1 =>
    let grid := unit * Nat.pow 10 (place + 1)
    let below := i.upper % grid
    if below < i.width || (below == i.width && 9 ≤ place + 1) then
      (i.lowered grid 9 (i.upper / grid) below, place + 1)
    else cutFrom i unit place

end Interval

/-- The decimal of a positive magnitude of the 32-bit width, in most cases the shortest one
that reads back. -/
def scaledDecimal (units : Nat) : Decimal :=
  let bits := units.log2 + 1
  let step := single.step units
  let significand := units / step
  let shift := 32 - (significand.log2 + 1)
  let exponent : Int := bits - 32 - single.scale
  let half := Nat.pow 2 (shift - 1)
  let below := if significand = Nat.pow 2 (single.bits - 1) then half / 2 else half
  let middle := significand * Nat.pow 2 shift
  let power := scalingPower exponent
  let scaled (n : Nat) : Scaled := Scaled.times ⟨n, exponent⟩ (Scaled.tenTo power)
  let upper := (scaled (middle + half)).significand - 1
  let lower := (scaled (middle - below)).significand + 1
  let value := scaled middle
  let parts := Nat.pow 10 9
  let interval : Interval :=
    ⟨upper * parts, (upper - lower) * parts, (upper - value.significand) * parts⟩
  let (digits, place) := interval.cutFrom (Nat.pow 2 (-value.exponent).toNat) 18
  Decimal.ofScientific digits (place - 9 - power)

end Swatch
