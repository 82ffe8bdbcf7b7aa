/-
Module: Swatch.Token.Basic
Purpose: The tokens of a style sheet.
Main exports:
  Bracket, Matcher, Token, Token.opens?, Token.isBlank
-/
import Swatch.Number.Numeral

namespace Swatch

/-- The three pairs of brackets. -/
inductive Bracket where
  | round
  | square
  | curly
deriving DecidableEq, Repr, Inhabited

/-- The attribute comparisons that are tokens of their own. -/
inductive Matcher where
  | includes
  | dash
  | start
  | finish
  | substring
deriving DecidableEq, Repr, Inhabited

/-- A token of a style sheet.  Names, strings and addresses are held unescaped. -/
inductive Token where
  | ident (name : Text)
  | atKeyword (name : Text)
  /-- A hash whose name could not stand as an identifier, such as `#1a`. -/
  | hash (name : Text)
  /-- A hash whose name is an identifier. -/
  | idHash (name : Text)
  | string (value : Text)
  /-- A string broken by the end of its line, with what was read of it. -/
  | badString (value : Text)
  /-- An address that is not quoted. -/
  | url (value : Text)
  /-- A malformed unquoted address, with its source text up to the closing bracket. -/
  | badUrl (contents : Text)
  | function (name : Text)
  | number (value : Numeral)
  | percentage (value : Numeral)
  | dimension (value : Numeral) (unit : Text)
  | delim (c : Char)
  | whitespace
  | comment (text : Text)
  | colon
  | semicolon
  | comma
  | matcher (kind : Matcher)
  | commentOpen
  | commentClose
  | opening (bracket : Bracket)
  | closing (bracket : Bracket)
deriving DecidableEq, Repr, Inhabited

namespace Bracket

/-- The character that opens the pair. -/
def openChar : Bracket → Char
  | .round => '('
  | .square => '['
  | .curly => '{'

/-- The character that closes the pair. -/
def closeChar : Bracket → Char
  | .round => ')'
  | .square => ']'
  | .curly => '}'

end Bracket

namespace Token

/-- The pair that a token opens, if it opens one: a function opens round brackets. -/
def opens? : Token → Option Bracket
  | .function _ => some .round
  | .opening bracket => some bracket
  | _ => none

/-- Whether the token only separates: white space or a comment. -/
def isBlank : Token → Bool
  | .whitespace => true
  | .comment _ => true
  | _ => false

end Token

end Swatch
