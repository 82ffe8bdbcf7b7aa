/-
Module: Swatch.Color.Resolve
Purpose: Which colour a text denotes.
Main exports:
  hexColor, rgbColor, canonicalize
-/
import Swatch.Color.Basic
import Swatch.Tree

namespace Swatch

/-!
### Hexadecimal colours
-/

/-- The component that two hexadecimal digits spell. -/
def channelOf (high low : Char) : Channel :=
  .ofNat (16 * hexValue high + hexValue low)

/-- The colour that the digits after a hash spell: six, or three that stand for two equal
ones each. -/
def hexColor (digits : Text) : Except HexFault Color :=
  if digits.all isHexDigit then
    match digits with
    | [r, g, b] => .ok ⟨channelOf r r, channelOf g g, channelOf b b⟩
    | [r, r', g, g', b, b'] => .ok ⟨channelOf r r', channelOf g g', channelOf b b'⟩
    | _ => .error .wrongLength
  else .error .strangeDigit

/-!
### The `rgb()` function

Its arguments are read one by one from the trees between its brackets, white space and
comments left out.
-/

/-- A component as it is written. -/
inductive Component where
  | number (value : Numeral)
  | percentage (value : Numeral)
deriving DecidableEq, Repr

/-- The nearest whole number, kept between 0 and 255. -/
def Numeral.level (n : Numeral) : Channel :=
  if n.negative then .lowest else .ofNat (single.nearestWhole 255 n.size)

/-- The nearest whole number on the scale where one is 255, kept on that scale. -/
def Numeral.share (n : Numeral) : Channel :=
  if n.negative then .lowest
  else .ofNat (single.nearestWhole 255 (single.mul n.size (single.ofRatio 255 1)))

namespace Component

/-- A colour component: a number is a level, a percentage a share. -/
def channel : Component → Channel
  | .number value => value.level
  | .percentage value => value.share

/-- An opacity: a share in either notation. -/
def opacity : Component → Channel
  | .number value => value.share
  | .percentage value => value.share

end Component

/-- Reads one tree that `accept` takes. -/
def expect {α : Type} (accept : Token → Option α) :
    List Tree → Except RgbFault (α × List Tree)
  | [] => .error .endOfText
  | t :: rest =>
    match accept t.token with
    | some a => .ok (a, rest)
    | none => .error (.unexpected t.token)

/-- A number or a percentage. -/
def component? : Token → Option Component
  | .number value => some (.number value)
  | .percentage value => some (.percentage value)
  | _ => none

/-- A component of the same kind as `model`. -/
def componentLike? (model : Component) : Token → Option Component
  | .number value =>
    match model with
    | .number _ => some (.number value)
    | .percentage _ => none
  | .percentage value =>
    match model with
    | .number _ => none
    | .percentage _ => some (.percentage value)
  | _ => none

/-- One given token. -/
def exactly? (token : Token) (found : Token) : Option Unit :=
  if found = token then some () else none

/-- Reads the arguments of `rgb()`: three components of one kind and an optional opacity.
A comma after the first component decides for commas throughout; without it the opacity
stands behind a slash.  The answer is the colour with its opacity. -/
def rgbArguments (arguments : List Tree) : Except RgbFault (Color × Channel) := do
  let (red, rest) ← expect component? arguments
  let commas := (rest.head?.map Tree.token) = some .comma
  let rest := if commas then rest.tail else rest
  let (green, rest) ← expect (componentLike? red) rest
  let rest ← if commas then Prod.snd <$> expect (exactly? .comma) rest else pure rest
  let (blue, rest) ← expect (componentLike? red) rest
  let color : Color := ⟨red.channel, green.channel, blue.channel⟩
  match rest with
  | [] => return (color, .highest)
  | rest => do
    let separator := if commas then Token.comma else Token.delim '/'
    let (_, rest) ← expect (exactly? separator) rest
    let (alpha, rest) ← expect component? rest
    match rest with
    | [] => return (color, alpha.opacity)
    | t :: _ => throw (.unexpected t.token)

/-- The colour of a text that is one `rgb()` function.  An open function is closed by the
end of the text; nothing may follow it. -/
def rgbColor (text : Text) : Except RgbFault Color := do
  match (trees text).filter (!·.isBlank) with
  | .block _ _ children _ _ :: rest => do
    let (color, alpha) ← rgbArguments (children.filter (!·.isBlank))
    match rest with
    | t :: _ => throw (.unexpected t.token)
    | [] => if alpha = .highest then return color else throw .translucent
  | .leaf lexeme :: _ => throw (.unexpected lexeme.token)
  | [] => throw .endOfText

/-!
### Resolution
-/

/-- The colour that a text denotes, blanks around it left out: a hash with three or six
digits, or an opaque `rgb()`. -/
def canonicalize (token : Text) : Except ColorError Color :=
  let text := trim token
  match text with
  | '#' :: digits => (hexColor digits).mapError (.invalidHex token)
  | _ =>
    if lowercase (text.take 4) = "rgb(".toList then
      (rgbColor text).mapError (.invalidRgb token)
    else .error (.unsupported token)

end Swatch
