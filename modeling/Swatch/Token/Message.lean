/-
Module: Swatch.Token.Message
Purpose: Tokens as messages name them.
Main exports:
  Token.messageText
-/
import Swatch.Number.Layout
import Swatch.Text.Printable
import Swatch.Token.Basic

namespace Swatch

/-- The name of a token kind with its text in brackets. -/
def labelled (kind : String) (shown : Text) : Text :=
  kind.toList ++ '(' :: (shown ++ [')'])

/-- The name of a token kind with named values in braces. -/
def fielded (kind : String) (fields : List (String × Text)) : Text :=
  let shown := fields.map fun (name, value) => name.toList ++ ": ".toList ++ value
  kind.toList ++ " \x7b ".toList ++ joined ", ".toList shown ++ " \x7d".toList

/-- A truth value. -/
def flagText (b : Bool) : Text := if b then "true".toList else "false".toList

/-- The integer value of a number, which only a number without fraction and exponent has. -/
def integerText : Option Int → Text
  | some i => labelled "Some" (integer i)
  | none => "None".toList

/-- The name of a bracket pair. -/
def Bracket.messageText : Bracket → String
  | .round => "Parenthesis"
  | .square => "SquareBracket"
  | .curly => "CurlyBracket"

/-- The name of a comparison. -/
def Matcher.messageText : Matcher → String
  | .includes => "IncludeMatch"
  | .dash => "DashMatch"
  | .start => "PrefixMatch"
  | .finish => "SuffixMatch"
  | .substring => "SubstringMatch"

/-- A token as a message names it: its kind, and what it holds. -/
def Token.messageText : Token → Text
  | .ident name => labelled "Ident" (quoted name)
  | .atKeyword name => labelled "AtKeyword" (quoted name)
  | .hash name => labelled "Hash" (quoted name)
  | .idHash name => labelled "IDHash" (quoted name)
  | .string value => labelled "QuotedString" (quoted value)
  | .badString value => labelled "BadString" (quoted value)
  | .url value => labelled "UnquotedUrl" (quoted value)
  | .badUrl contents => labelled "BadUrl" (quoted contents)
  | .function name => labelled "Function" (quoted name)
  | .number value =>
    fielded "Number" [("has_sign", flagText value.signed), ("value", value.messageText),
      ("int_value", integerText value.integer)]
  | .percentage value =>
    fielded "Percentage" [("has_sign", flagText value.signed),
      ("unit_value", value.messageText), ("int_value", integerText value.integer)]
  | .dimension value unit =>
    fielded "Dimension" [("has_sign", flagText value.signed), ("value", value.messageText),
      ("int_value", integerText value.integer), ("unit", quoted unit)]
  | .delim c => labelled "Delim" (quotedChar c)
  | .whitespace => labelled "WhiteSpace" (quoted [' '])
  | .comment text => labelled "Comment" (quoted text)
  | .colon => "Colon".toList
  | .semicolon => "Semicolon".toList
  | .comma => "Comma".toList
  | .matcher kind => kind.messageText.toList
  | .commentOpen => "CDO".toList
  | .commentClose => "CDC".toList
  | .opening bracket => bracket.messageText.toList ++ "Block".toList
  | .closing bracket => "Close".toList ++ bracket.messageText.toList

end Swatch
