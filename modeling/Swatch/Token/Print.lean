/-
Module: Swatch.Token.Print
Purpose: The one spelling in which each token is written.
Main exports:
  nameText, identText, stringText, urlText, Token.text
-/
import Swatch.Number.Layout
import Swatch.Token.Basic

namespace Swatch

/-- A character as an escape with its code point; the space ends the digits. -/
def hexEscape (c : Char) : Text :=
  '\\' :: (hexadecimal c.toNat ++ [' '])

/-- A control character of the ASCII range. -/
def isControl (c : Char) : Bool :=
  c.toNat < 0x20 || c.toNat == 0x7f

/-- A character inside a name: name characters stand for themselves, controls are written
as code points, and any other ASCII character follows a backslash. -/
def nameCharText (c : Char) : Text :=
  if c = '\x00' then [replacement]
  else if c.isAlphanum || c == '_' || c == '-' || 0x80 ≤ c.toNat then [c]
  else if isControl c then hexEscape c
  else ['\\', c]

/-- A name whose first character needs no care. -/
def nameText (name : Text) : Text := name.flatMap nameCharText

/-- A name after an optional hyphen: a leading digit would start a number, so it is
escaped. -/
def leadText : Text → Text
  | c :: rest => if c.isDigit then hexEscape c ++ nameText rest else nameText (c :: rest)
  | [] => []

/-- A name that reads back as an identifier. -/
def identText : Text → Text
  | '-' :: '-' :: rest => '-' :: '-' :: nameText rest
  | ['-'] => ['\\', '-']
  | '-' :: rest => '-' :: leadText rest
  | name => leadText name

/-- A character inside a quoted string. -/
def stringCharText (c : Char) : Text :=
  if c = '"' || c = '\\' then ['\\', c]
  else if c = '\x00' then [replacement]
  else if isControl c then hexEscape c
  else [c]

/-- A string, always in double quotes. -/
def stringText (value : Text) : Text :=
  '"' :: (value.flatMap stringCharText ++ ['"'])

/-- A character inside an unquoted address. -/
def urlCharText (c : Char) : Text :=
  if isControl c || c == ' ' then hexEscape c
  else if c == '(' || c == ')' || c == '"' || c == '\'' || c == '\\' then ['\\', c]
  else [c]

/-- An unquoted address. -/
def urlText (value : Text) : Text :=
  "url(".toList ++ value.flatMap urlCharText ++ [')']

/-- A unit after its number.  One that could be read as an exponent has its first letter
escaped. -/
def unitText : Text → Text
  | [] => []
  | c :: rest =>
    if (c = 'e' || c = 'E') && (rest = [] || rest.head? = some '-') then
      "\\65 ".toList ++ nameText rest
    else identText (c :: rest)

/-- The text of a comparison. -/
def Matcher.text : Matcher → Text
  | .includes => ['~', '=']
  | .dash => ['|', '=']
  | .start => ['^', '=']
  | .finish => ['$', '=']
  | .substring => ['*', '=']

/-- The spelling of a token.  An opening bracket is only that bracket, and a function its
name with the bracket. -/
def Token.text : Token → Text
  | .ident name => identText name
  | .atKeyword name => '@' :: identText name
  | .hash name => '#' :: nameText name
  | .idHash name => '#' :: identText name
  | .string value => stringText value
  | .badString value => '"' :: value.flatMap stringCharText
  | .url value => urlText value
  | .badUrl contents => "url(".toList ++ contents ++ [')']
  | .function name => identText name ++ ['(']
  | .number value => value.text
  | .percentage value => value.percentText
  | .dimension value unit => value.text ++ unitText unit
  | .delim c => [c]
  | .whitespace => [' ']
  | .comment text => "/*".toList ++ text ++ "*/".toList
  | .colon => [':']
  | .semicolon => [';']
  | .comma => [',']
  | .matcher kind => kind.text
  | .commentOpen => "<!--".toList
  | .commentClose => "-->".toList
  | .opening bracket => [bracket.openChar]
  | .closing bracket => [bracket.closeChar]

end Swatch
