/-
Module: Swatch.Color.Basic
Purpose: Opaque colours, their text, and why a text is not one.
Main exports:
  Color, Color.text, HexFault, RgbFault, ColorError, ColorError.message
-/
import Swatch.Token.Message

namespace Swatch

/-- One of the three components of a colour. -/
abbrev Channel := Fin 256

namespace Channel

/-- The low eight bits of a number. -/
def ofNat (n : Nat) : Channel := ⟨n % 256, Nat.mod_lt n (by decide)⟩

/-- The component that a colour lacks. -/
def lowest : Channel := ofNat 0

/-- The component that a colour has in full. -/
def highest : Channel := ofNat 255

end Channel

/-- An opaque colour.  Two colour texts denote the same colour when they resolve to the same
value. -/
structure Color where
  red : Channel
  green : Channel
  blue : Channel
deriving DecidableEq, Repr, Inhabited

/-- A component in two lowercase hexadecimal digits. -/
def channelText (c : Channel) : Text :=
  [Nat.digitChar (c.val / 16), Nat.digitChar (c.val % 16)]

/-- The one text that stands for a colour: a hash and six lowercase digits. -/
def Color.text (c : Color) : Text :=
  '#' :: (channelText c.red ++ channelText c.green ++ channelText c.blue)

/-- Black. -/
def Color.black : Color := ⟨.lowest, .lowest, .lowest⟩

/-- Why a text after a hash is no colour.  A resolver may have words of its own for it. -/
inductive HexFault where
  | strangeDigit
  | wrongLength
  | other (words : Text)
deriving DecidableEq, Repr, Inhabited

/-- Why an `rgb()` text is no opaque colour.  A resolver may have words of its own for it. -/
inductive RgbFault where
  | endOfText
  | unexpected (found : Token)
  | translucent
  | other (words : Text)
deriving DecidableEq, Repr, Inhabited

/-- Why a text is no colour, with the text as it was given. -/
inductive ColorError where
  | invalidHex (token : Text) (fault : HexFault)
  | invalidRgb (token : Text) (fault : RgbFault)
  | unsupported (token : Text)
deriving DecidableEq, Repr, Inhabited

/-- The text that is no colour. -/
def ColorError.token : ColorError → Text
  | .invalidHex token _ => token
  | .invalidRgb token _ => token
  | .unsupported token => token

/-- The fault in words. -/
def HexFault.message : HexFault → Text
  | .strangeDigit => "expected only hexadecimal digits".toList
  | .wrongLength =>
    "invalid hex code format, please use format '#fff', 'fff', '#ffffff', 'ffffff', etc.".toList
  | .other words => words

/-- The fault in words. -/
def RgbFault.message : RgbFault → Text
  | .endOfText => "unexpected end of input".toList
  | .unexpected found => "unexpected ".toList ++ found.messageText
  | .translucent => "alpha channels are not supported".toList
  | .other words => words

/-- The error in words. -/
def ColorError.message : ColorError → Text
  | .invalidHex token fault =>
    "invalid hex color ".toList ++ quoted token ++ ": ".toList ++ fault.message
  | .invalidRgb token fault =>
    "invalid rgb color ".toList ++ quoted token ++ ": ".toList ++ fault.message
  | .unsupported token => "unsupported color syntax ".toList ++ quoted token

/-- A way to tell which colour a text denotes. -/
abbrev Resolver := Text → Except ColorError Color

end Swatch
