/-
Module: Swatch.Number.Layout
Purpose: How numbers are laid out in style sheets and in messages.
Main exports:
  Layout, Decimal.text, Layout.sheet, Layout.message, Numeral.text, Numeral.percentText
-/
import Swatch.Number.Scaled
import Swatch.Number.Numeral

namespace Swatch

/-- The choices by which two decimal notations differ. -/
structure Layout where
  /-- More digits than this are rounded away, a half going up. -/
  mostDigits : Nat
  /-- A decimal point at or below this place asks for an exponent. -/
  lowest : Int
  /-- A decimal point above this place asks for an exponent. -/
  highest : Int
  /-- Whether a whole number without an exponent ends in `.0`. -/
  keepsPoint : Bool

/-- A style sheet shows six digits, and positional notation reaches from a millionth to
below `10 ^ 21`. -/
def Layout.sheet : Layout := ⟨6, -6, 21, false⟩

/-- A message shows all digits of the shortest decimal, positionally from `0.0001` to below
`10 ^ 16`, and always with a fraction there. -/
def Layout.message : Layout := ⟨17, -4, 16, true⟩

/-- The text without its trailing zeros. -/
def dropTrailingZeros (s : Text) : Text :=
  (s.reverse.dropWhile (· == '0')).reverse

/-- The number `digits * 10 ^ exponent` in positional notation, without trailing zeros after
the point. -/
def positional (digits : Nat) (exponent : Int) : Text :=
  match exponent with
  | .ofNat zeros => natural digits ++ List.replicate zeros '0'
  | .negSucc k =>
    let unit := Nat.pow 10 (k + 1)
    let places := natural (digits % unit)
    let fraction :=
      dropTrailingZeros (List.replicate (k + 1 - places.length) '0' ++ places)
    natural (digits / unit) ++ (if fraction.isEmpty then [] else '.' :: fraction)

/-- A decimal in a layout.  The place of the point is the one before rounding, so a rounding
that carries into a new digit does not change the exponent. -/
def Decimal.text (layout : Layout) (d : Decimal) : Text :=
  let count := digitCount d.digits
  let excess := count - layout.mostDigits
  let grid := Nat.pow 10 excess
  let digits := (2 * d.digits + grid) / (2 * grid)
  let digits := if excess = 0 then d.digits else digits
  let exponent := d.point - (count - excess : Nat)
  if layout.lowest < d.point ∧ d.point ≤ layout.highest then
    let text := positional digits exponent
    if layout.keepsPoint ∧ '.' ∉ text then text ++ ".0".toList else text
  else
    positional digits (exponent - (d.point - 1)) ++ 'e' :: integer (d.point - 1)

/-- A magnitude of the 32-bit width as a style sheet writes it.  Beyond all magnitudes the
bound itself is written.  What has no value is written as one and a half times the power of two
above the bound, which its bits spell if they are read as those of a number. -/
def Magnitude.sheetText : Magnitude → Text
  | .finite 0 => ['0']
  | .finite units => (scaledDecimal units).text Layout.sheet
  | .infinite => "3.40282e38".toList
  | .undefined => "5.10424e38".toList

/-- A magnitude of the 32-bit width as a message shows it. -/
def Magnitude.messageText : Magnitude → Text
  | .finite 0 => "0.0".toList
  | .finite units => (single.shortest units).text Layout.message
  | .infinite => "inf".toList
  | .undefined => "NaN".toList

namespace Numeral

/-- The sign that is written before `size`: a minus always, a plus only where one was read, and
none where there is no value. -/
def signText (n : Numeral) (size : Magnitude) : Text :=
  if size = .undefined then []
  else if n.negative then ['-'] else if n.signed then ['+'] else []

/-- The number with magnitude `size` in place of its own.  One that was read with a fraction
or an exponent and is whole gets a `.0`, unless its text already has a point or an
exponent: reading it again must not make it an integer. -/
def textOf (n : Numeral) (size : Magnitude) : Text :=
  let digits := size.sheetText
  let fractional := n.integer.isNone && single.isWhole size
  n.signText size ++ digits ++
    (if fractional && !digits.any (fun c => c == '.' || c == 'e') then ".0".toList else [])

/-- The number as a style sheet writes it. -/
def text (n : Numeral) : Text := n.textOf n.size

/-- The percentage as a style sheet writes it: a hundred times its size, rounded. -/
def percentText (n : Numeral) : Text :=
  n.textOf (single.mul n.size (single.ofRatio 100 1)) ++ ['%']

/-- The number as a message shows it. -/
def messageText (n : Numeral) : Text :=
  (if n.negative ∧ n.size ≠ .undefined then ['-'] else []) ++ n.size.messageText

end Numeral

end Swatch
