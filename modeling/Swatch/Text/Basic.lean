/-
Module: Swatch.Text.Basic
Purpose: Text as a list of characters, the character classes every reader shares, and places in
  a text.
Main exports:
  Text, isNewline, isSpace, isHexDigit, hexValue, natural, hexadecimal, joined, strip?, trim,
  Position, Position.advance, utf16Length
-/
namespace Swatch

/-- All text of the library is a list of code points: readers recurse on it and
printers append to it. -/
abbrev Text := List Char

/-- A line ends at a line feed, a carriage return or a form feed. -/
def isNewline (c : Char) : Bool :=
  c == '\n' || c == '\r' || c == '\x0c'

/-- White space of a style sheet: space, tab and the three line ends. -/
def isSpace (c : Char) : Bool :=
  c == ' ' || c == '\t' || isNewline c

/-- The character that stands in for text that cannot be kept. -/
def replacement : Char := '\uFFFD'

/-- A decimal or hexadecimal digit of the ASCII range, in either case. -/
def isHexDigit (c : Char) : Bool :=
  c.isDigit || ('a' ≤ c && c ≤ 'f') || ('A' ≤ c && c ≤ 'F')

/-- The value of a decimal digit. -/
def digitValue (c : Char) : Nat := c.toNat - '0'.toNat

/-- The value of a hexadecimal digit in either case; `0` for any other character. -/
def hexValue (c : Char) : Nat :=
  if c.isDigit then c.toNat - '0'.toNat
  else if 'a' ≤ c && c ≤ 'f' then c.toNat - 'a'.toNat + 10
  else if 'A' ≤ c && c ≤ 'F' then c.toNat - 'A'.toNat + 10
  else 0

/-- A natural number in decimal digits without leading zeros. -/
def natural (n : Nat) : Text := Nat.toDigits 10 n

/-- A natural number in lowercase hexadecimal digits without leading zeros. -/
def hexadecimal (n : Nat) : Text := Nat.toDigits 16 n

/-- An integer in decimal digits, with a minus sign below zero. -/
def integer (i : Int) : Text :=
  if i < 0 then '-' :: natural i.natAbs else natural i.natAbs

/-- ASCII letters in lower case; all other characters stay. -/
def lowercase (s : Text) : Text := s.map Char.toLower

/-- Texts in order with `separator` between neighbours. -/
def joined (separator : Text) : List Text → Text
  | [] => []
  | [t] => t
  | t :: rest => t ++ separator ++ joined separator rest

/-- The text with a leading `lead` taken off, if it has one. -/
def strip? : (lead : Text) → Text → Option Text
  | [], s => some s
  | _ :: _, [] => none
  | l :: lead, c :: s => if l = c then strip? lead s else none

theorem strip?_eq_some {lead s rest : Text} :
    strip? lead s = some rest ↔ s = lead ++ rest := by
  induction lead generalizing s with
  | nil => simp [strip?, eq_comm]
  | cons l lead ih =>
    cases s with
    | nil => simp [strip?]
    | cons c s =>
      by_cases h : l = c
      · simp [strip?, h, ih]
      · simp [strip?, h, Ne.symm h]

/-- The number of bytes of the text in UTF-8. -/
def utf8Length (s : Text) : Nat := s.foldr (fun c n => c.utf8Size + n) 0

/-!
### Blanks at the ends
-/

/-- The characters with the Unicode property White_Space.  Wider than `isSpace`: it also
holds the vertical tab, the next line control, the no-break and the typographic spaces
and the two separators. -/
def isBlank (c : Char) : Bool :=
  let n := c.toNat
  (0x09 ≤ n && n ≤ 0x0d) || n == 0x20 || n == 0x85 || n == 0xa0 || n == 0x1680 ||
    (0x2000 ≤ n && n ≤ 0x200a) || n == 0x2028 || n == 0x2029 || n == 0x202f ||
    n == 0x205f || n == 0x3000

/-- The text without its leading blanks. -/
def trimStart (s : Text) : Text := s.dropWhile isBlank

/-- The text without its trailing blanks. -/
def trimEnd (s : Text) : Text := (s.reverse.dropWhile isBlank).reverse

/-- The text without blanks at either end. -/
def trim (s : Text) : Text := trimEnd (trimStart s)

/-!
### Places
-/

/-- A place in a source text.  Both counts start at one; a column is one UTF-16 code
unit, so a character outside the basic plane is two columns wide. -/
structure Position where
  line : Nat := 1
  column : Nat := 1
deriving DecidableEq, Repr, Inhabited

/-- The columns that one character takes. -/
def utf16Length (c : Char) : Nat := if c.toNat < 0x10000 then 1 else 2

/-- The place reached by reading `text` from `here`.  A carriage return and the line feed
after it end one line together. -/
def Position.advance (here : Position) : Text → Position
  | [] => here
  | '\r' :: '\n' :: rest => advance ⟨here.line + 1, 1⟩ rest
  | c :: rest =>
    if isNewline c then advance ⟨here.line + 1, 1⟩ rest
    else advance ⟨here.line, here.column + utf16Length c⟩ rest

/-- A place as `line:column`. -/
def Position.text (here : Position) : Text :=
  natural here.line ++ ':' :: natural here.column

end Swatch
