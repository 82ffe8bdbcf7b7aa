/-
Module: Swatch.Yaml.Property
Purpose: Names of nodes, their tags, and the directives before a document.
Main exports:
  Yaml.readAnchor, Yaml.Tag, Yaml.readTag, Yaml.Directive, Yaml.readDirective
-/
import Swatch.Yaml.Scalar

namespace Swatch.Yaml

/-- A character of the name of a node, of a handle and of a directive. -/
def isWordChar (c : Char) : Bool := c.isAlphanum || c == '_' || c == '-'

/-- Reads the name of a node.  A blank or one of the marks that end names stands behind it. -/
def readAnchor (s : Text) : Option (Text × Text) :=
  let name := s.takeWhile isWordChar
  let rest := s.drop name.length
  let ends := startsBlank rest || rest.head?.any fun c => "?:,]\x7d%@\x60".toList.contains c
  if !name.isEmpty && ends then some (name, rest) else none

/-!
### Tags

A tag is written in full, or as a suffix behind a handle.  Octets of it may be written in
hexadecimal digits, and then have to be those of UTF-8.
-/

/-- How many octets follow the first one of a character. -/
def octetsBehind? (octet : Nat) : Option Nat :=
  if octet < 0x80 then some 0
  else if octet < 0xc0 then none
  else if octet < 0xe0 then some 1
  else if octet < 0xf0 then some 2
  else if octet < 0xf8 then some 3
  else none

/-- How many octets are missing after `octet` where `due` were missing before it. -/
def octetsAfter? (due octet : Nat) : Option Nat :=
  match due with
  | 0 => octetsBehind? octet
  | due + 1 => if octet / 0x40 = 2 then some due else none

/-- A character of a tag; some marks only stand in one that is written in full. -/
def isTagChar (full : Bool) (c : Char) : Bool :=
  isWordChar c || ";/?:@&=+$.!~*'()".toList.contains c ||
    (full && (c == ',' || c == '[' || c == ']'))

/-- Reads the characters of a tag.  An octet counts as one character, and `due` octets of a
character are still missing. -/
def readTagChars (full : Bool) (due : Nat) : Text → Option (Text × Text)
  | '%' :: a :: b :: s =>
    if isHexDigit a && isHexDigit b then do
      let octet := 16 * hexValue a + hexValue b
      let due ← octetsAfter? due octet
      let (text, rest) ← readTagChars full due s
      return (Char.ofNat octet :: text, rest)
    else none
  | [] => if due = 0 then some ([], []) else none
  | c :: s =>
    if due ≠ 0 || c == '%' then none
    else if isTagChar full c then do
      let (text, rest) ← readTagChars full 0 s
      return (c :: text, rest)
    else some ([], c :: s)

/-- Reads the characters of a tag, of which there is at least one.  What stands behind a zero
octet does not count. -/
def readTagText (full : Bool) (s : Text) : Option (Text × Text) := do
  let (text, rest) ← readTagChars full 0 s
  if text.isEmpty then none
  return (text.takeWhile (· != '\x00'), rest)

/-- A tag in full, or as a suffix behind a handle. -/
inductive Tag where
  | full (text : Text)
  | short (handle suffix : Text)
deriving DecidableEq, Repr, Inhabited

namespace Tag

/-- The handle of tags that a program defines for itself. -/
def ownHandle : Text := ['!']

/-- The handle of the tags that all programs know. -/
def commonHandle : Text := ['!', '!']

/-- What all programs know starts with this. -/
def commonStart : Text := "tag:yaml.org,2002:".toList

/-- The tag of a missing value. -/
def null : Text := commonStart ++ "null".toList

/-- The tag of a truth value. -/
def bool : Text := commonStart ++ "bool".toList

/-- The tag of a whole number. -/
def int : Text := commonStart ++ "int".toList

/-- The handles that need no directive. -/
def handles : List (Text × Text) := [(ownHandle, ownHandle), (commonHandle, commonStart)]

/-- The tag in full, if its handle is one of `known` or needs no directive. -/
def text? (known : List (Text × Text)) : Tag → Option Text
  | .full text => some text
  | .short handle suffix =>
    ((known ++ handles).find? (·.1 == handle)).map fun (_, start) => start ++ suffix

end Tag

/-- Reads a tag after its mark.  The mark alone is a tag too. -/
def readTag : Text → Option (Tag × Text)
  | '<' :: s => do
    let (text, rest) ← readTagText true s
    match rest with
    | '>' :: rest => return (.full text, rest)
    | _ => none
  | s =>
    let word := s.takeWhile isWordChar
    match s.drop word.length with
    | '!' :: rest => do
      let (suffix, rest) ← readTagText false rest
      return (.short ('!' :: (word ++ ['!'])) suffix, rest)
    | rest => do
      let (text, rest) ← readTagChars false 0 rest
      let suffix := (word ++ text).takeWhile (· != '\x00')
      return (if suffix.isEmpty then .full ['!'] else .short Tag.ownHandle suffix, rest)

/-!
### Directives
-/

/-- What stands before a document: the version of the language, or what a handle stands for. -/
inductive Directive where
  | version
  | handle (handle start : Text)
deriving DecidableEq, Repr, Inhabited

/-- Reads a number of at most nine digits. -/
def readShortNumber (s : Text) : Option (Nat × Text) :=
  let digits := s.takeWhile Char.isDigit
  if digits.isEmpty || 9 < digits.length then none
  else some (digits.foldl (fun n c => 10 * n + digitValue c) 0, s.drop digits.length)

/-- Reads the version: 1.1 or 1.2. -/
def readVersion (s : Text) : Option (Directive × Text) := do
  let (major, rest) ← readShortNumber s
  match rest with
  | '.' :: rest =>
    let (minor, rest) ← readShortNumber rest
    if major = 1 && (minor = 1 || minor = 2) then return (.version, rest) else none
  | _ => none

/-- Reads a handle and what it stands for. -/
def readHandle : Text → Option (Directive × Text)
  | '!' :: s => do
    let word := s.takeWhile isWordChar
    let rest := s.drop word.length
    let closed := rest.head? == some '!'
    if !closed && !word.isEmpty then none
    let handle := '!' :: (word ++ (if closed then ['!'] else []))
    let rest := if closed then rest.tail else rest
    if !rest.head?.any isInline then none
    let (start, rest) ← readTagText true (rest.dropWhile isInline)
    if startsBlank rest then return (.handle handle start, rest) else none
  | _ => none

/-- Reads a directive after its mark, and the rest of its line. -/
def readDirective (s : Text) : Option (Directive × Text) := do
  let name := s.takeWhile isWordChar
  let rest := s.drop name.length
  if !startsBlank rest then none
  let value := rest.dropWhile isInline
  let (directive, rest) ←
    if name = "YAML".toList then readVersion value
    else if name = "TAG".toList then readHandle value
    else none
  return (directive, ← skipLine rest)

end Swatch.Yaml
