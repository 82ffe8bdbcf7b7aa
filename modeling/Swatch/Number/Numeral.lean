/-
Module: Swatch.Number.Numeral
Purpose: Numbers as a style sheet writes them, and the value they are read as.
Main exports:
  Written, readWritten, startsNumber, Numeral, Written.number, Written.percentage
-/
import Swatch.Number.Rounding
import Swatch.Text.Basic

namespace Swatch

/-- A number as it is written: an optional sign, digits, an optional fraction and an
optional exponent, which may have a sign of its own. -/
structure Written where
  sign : Option Char
  whole : Text
  fraction : Option Text
  exponent : Option (Char × Option Char × Text)
deriving DecidableEq, Repr

/-- The digits at the start of the text. -/
def leadingDigits (s : Text) : Text := s.takeWhile Char.isDigit

/-- The sign at the start of the text. -/
def leadingSign (s : Text) : Option Char :=
  s.head?.filter fun c => c == '+' || c == '-'

/-- The text after its sign. -/
def afterSign (s : Text) : Text := s.drop (leadingSign s).toList.length

/-- Whether the text starts with a digit. -/
def startsWithDigit (s : Text) : Bool := s.head?.any Char.isDigit

/-- The digits of the fraction at the start of the text: a point counts only before a
digit. -/
def leadingFraction : Text → Option Text
  | '.' :: s => if startsWithDigit s then some (leadingDigits s) else none
  | _ => none

/-- The exponent at the start of the text: the letter counts only before a digit or before
a sign and a digit. -/
def leadingExponent : Text → Option (Char × Option Char × Text)
  | e :: s =>
    if (e == 'e' || e == 'E') && startsWithDigit (afterSign s) then
      some (e, leadingSign s, leadingDigits (afterSign s))
    else none
  | [] => none

namespace Written

/-- The text of a fraction. -/
def fractionText : Option Text → Text
  | some digits => '.' :: digits
  | none => []

/-- The text of an exponent. -/
def exponentText : Option (Char × Option Char × Text) → Text
  | some (e, sign, digits) => e :: (sign.toList ++ digits)
  | none => []

/-- The text of the number. -/
def text (w : Written) : Text :=
  w.sign.toList ++ w.whole ++ fractionText w.fraction ++ exponentText w.exponent

end Written

/-- The number at the start of the text. -/
def readWritten (s : Text) : Written :=
  let digits := afterSign s
  let whole := leadingDigits digits
  let rest := digits.drop whole.length
  let fraction := leadingFraction rest
  let rest := rest.drop (Written.fractionText fraction).length
  ⟨leadingSign s, whole, fraction, leadingExponent rest⟩

/-- Whether a number starts here: a digit, or a point and a digit, after an optional
sign. -/
def startsNumber (s : Text) : Bool :=
  let digits := afterSign s
  startsWithDigit digits || (leadingFraction digits).isSome

/-!
### The value of a written number

The value is built digit by digit in 64-bit arithmetic, with a rounding at every step, and
rounded once more to the 32-bit width that tokens carry.
-/

/-- The number that a run of digits spells, without rounding. -/
def digitsValue (digits : Text) : Nat :=
  digits.foldl (fun n c => 10 * n + digitValue c) 0

/-- A small number, exactly. -/
def exactly (n : Nat) : Magnitude := double.ofRatio n 1

/-- The whole part: ten times the number so far plus the next digit, rounded twice. -/
def wholeValue (digits : Text) : Magnitude :=
  digits.foldl
    (fun n c => double.add (double.mul n (exactly 10)) (exactly (digitValue c)))
    (.finite 0)

/-- The fraction and the weight of the next place: each digit is added with its weight, and
the weights are the rounded powers of the rounded tenth. -/
def fractionValue (digits : Text) : Magnitude :=
  (digits.foldl
    (fun (sum, weight) c =>
      (double.add sum (double.mul (exactly (digitValue c)) weight),
        double.mul weight (double.ofRatio 1 10)))
    (.finite 0, double.ofRatio 1 10)).1

namespace Written

/-- The magnitude in the 64-bit width. -/
def magnitude (w : Written) : Magnitude :=
  let sum := double.add (wholeValue w.whole) (fractionValue (w.fraction.getD []))
  match w.exponent with
  | none => sum
  | some (_, sign, digits) =>
    double.mul sum (double.powerOfTen (sign == some '-') (digitsValue digits))

/-- Whether the number has neither a fraction nor an exponent. -/
def isInteger (w : Written) : Bool :=
  w.fraction.isNone && w.exponent.isNone

end Written

/-- A number as a token carries it. -/
structure Numeral where
  /-- A sign was written, be it plus or minus. -/
  signed : Bool
  negative : Bool
  /-- The magnitude in the 32-bit width. -/
  size : Magnitude
  /-- The value, if the number was written as an integer, kept within 32 bits. -/
  integer : Option Int
deriving DecidableEq, Repr, Inhabited

namespace Written

/-- The integer value, kept within the signed 32-bit range. -/
def integerValue (w : Written) : Option Int :=
  if w.isInteger then
    if w.sign = some '-' then some (-(double.truncate 0x80000000 w.magnitude : Nat))
    else some (double.truncate 0x7FFFFFFF w.magnitude : Nat)
  else none

/-- The number itself. -/
def number (w : Written) : Numeral where
  signed := w.sign.isSome
  negative := w.sign = some '-'
  size := double.convert single w.magnitude
  integer := w.integerValue

/-- The number read as a percentage, whose size is a hundredth of what is written. -/
def percentage (w : Written) : Numeral where
  signed := w.sign.isSome
  negative := w.sign = some '-'
  size := double.convert single (double.divide w.magnitude 100)
  integer := w.integerValue

end Written

end Swatch
