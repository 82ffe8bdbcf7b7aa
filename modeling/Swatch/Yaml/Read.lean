/-
Module: Swatch.Yaml.Read
Purpose: The document that the items of a YAML text form.
Main exports:
  Yaml.read
-/
import Swatch.Yaml.Item

namespace Swatch.Yaml

/-- Whether one of `ends` comes next. -/
def comesNext (ends : List Item) : List Item → Bool
  | [] => false
  | item :: _ => ends.contains item

/-!
### What stands before a node
-/

/-- The number and the tag of a node. -/
structure Properties where
  number : Option Nat := none
  tag : Option Text := none
deriving DecidableEq, Repr, Inhabited

namespace Properties

/-- The node with its number. -/
def mark (p : Properties) (node : Yaml) : Yaml :=
  match p.number with
  | some number => .anchored number node
  | none => node

/-- The tag of a scalar that is written: the mark of a tag alone is none. -/
def scalarTag (p : Properties) : Option Text := p.tag.filter (· ≠ ['!'])

end Properties

/-- Takes the number and the tag of the node that follows, in either order. -/
def takeProperties : List Item → Properties × List Item
  | .anchor number :: .tag tag :: rest => (⟨some number, some tag⟩, rest)
  | .tag tag :: .anchor number :: rest => (⟨some number, some tag⟩, rest)
  | .anchor number :: rest => (⟨some number, none⟩, rest)
  | .tag tag :: rest => (⟨none, some tag⟩, rest)
  | items => ({}, items)

/-!
### Nodes

Each reader gets one step less than its caller, and at most four of them work on a list
before an item of it is taken, so four steps for each item are enough.  A node that is not
written is the empty scalar.
-/

mutual

/-- Reads a node.  `bare` says that a sequence may stand here without indentation. -/
def readNode (bare : Bool) : (steps : Nat) → List Item → Option (Yaml × List Item)
  | _ + 1, .reference number :: rest => some (.reference number, rest)
  | steps + 1, items => do
    let (properties, items) := takeProperties items
    let (node, rest) ← readContent bare properties steps items
    return (properties.mark node, rest)
  | _, _ => none

/-- Reads the content of a node.  Behind a number or a tag it need not be written. -/
def readContent (bare : Bool) (properties : Properties) :
    (steps : Nat) → List Item → Option (Yaml × List Item)
  | _, .scalar style text :: rest => some (.scalar style properties.scalarTag text, rest)
  | steps + 1, .flowSequenceStart :: rest => do
    let (nodes, rest) ← readFlowSequence true steps rest
    return (.sequence nodes, rest)
  | steps + 1, .flowMappingStart :: rest => do
    let (entries, rest) ← readFlowMapping true steps rest
    return (.mapping entries, rest)
  | steps + 1, .sequenceStart :: rest => do
    let (nodes, rest) ← readSequence steps rest
    return (.sequence nodes, rest)
  | steps + 1, .mappingStart :: rest => do
    let (entries, rest) ← readMapping steps rest
    return (.mapping entries, rest)
  | steps + 1, items =>
    if bare && comesNext [.entry] items then do
      let (nodes, rest) ← readBareSequence steps items
      return (.sequence nodes, rest)
    else if properties = {} then none
    else some (.scalar .plain properties.tag [], items)
  | _, _ => none

/-- Reads a node, or the empty one where one of `ends` comes next. -/
def readNodeOr (ends : List Item) (bare : Bool) :
    (steps : Nat) → List Item → Option (Yaml × List Item)
  | 0, _ => none
  | steps + 1, items =>
    if comesNext ends items then some (.empty, items) else readNode bare steps items

/-- Reads the value after a key, or the empty one where there is no colon. -/
def readValueOr (ends : List Item) (bare : Bool) :
    (steps : Nat) → List Item → Option (Yaml × List Item)
  | steps + 1, .value :: rest => readNodeOr ends bare steps rest
  | _, items => some (.empty, items)

/-- Reads the rest of an indented sequence. -/
def readSequence : (steps : Nat) → List Item → Option (List Yaml × List Item)
  | steps + 1, .entry :: rest => do
    let (node, rest) ← readNodeOr [.entry, .blockEnd] false steps rest
    let (nodes, rest) ← readSequence steps rest
    return (node :: nodes, rest)
  | _ + 1, .blockEnd :: rest => some ([], rest)
  | _, _ => none

/-- Reads the rest of a sequence that is not indented: it ends where no entry follows. -/
def readBareSequence : (steps : Nat) → List Item → Option (List Yaml × List Item)
  | steps + 1, .entry :: rest => do
    let (node, rest) ← readNodeOr [.entry, .key, .value, .blockEnd] false steps rest
    let (nodes, rest) ← readBareSequence steps rest
    return (node :: nodes, rest)
  | _ + 1, items => some ([], items)
  | _, _ => none

/-- Reads the rest of an indented mapping. -/
def readMapping : (steps : Nat) → List Item → Option (List (Yaml × Yaml) × List Item)
  | steps + 1, .key :: rest => do
    let (key, rest) ← readNodeOr [.key, .value, .blockEnd] true steps rest
    let (value, rest) ← readValueOr [.key, .value, .blockEnd] true steps rest
    let (entries, rest) ← readMapping steps rest
    return ((key, value) :: entries, rest)
  | _ + 1, .blockEnd :: rest => some ([], rest)
  | _, _ => none

/-- Reads the rest of a sequence in brackets.  An entry may be a single pair.  A key mark
without a key uses up the mark after it. -/
def readFlowSequence (first : Bool) :
    (steps : Nat) → List Item → Option (List Yaml × List Item)
  | 0, _ => none
  | steps + 1, items => do
    let items ←
      match items with
      | .flowSequenceEnd :: _ => pure items
      | .comma :: rest => if first then none else pure rest
      | _ => if first then pure items else none
    match items with
    | .flowSequenceEnd :: rest => return ([], rest)
    | .key :: rest => do
      let ends := [.value, .comma, .flowSequenceEnd]
      let (key, rest') ← readNodeOr ends false steps rest
      let rest := if comesNext ends rest then rest.tail else rest'
      let (value, rest) ← readValueOr [.comma, .flowSequenceEnd] false steps rest
      let (nodes, rest) ← readFlowSequence false steps rest
      return (.mapping [(key, value)] :: nodes, rest)
    | items => do
      let (node, rest) ← readNode false steps items
      let (nodes, rest) ← readFlowSequence false steps rest
      return (node :: nodes, rest)

/-- Reads the rest of a mapping in brackets.  An entry without a colon is a key with the
empty value. -/
def readFlowMapping (first : Bool) :
    (steps : Nat) → List Item → Option (List (Yaml × Yaml) × List Item)
  | 0, _ => none
  | steps + 1, items => do
    let items ←
      match items with
      | .flowMappingEnd :: _ => pure items
      | .comma :: rest => if first then none else pure rest
      | _ => if first then pure items else none
    match items with
    | .flowMappingEnd :: rest => return ([], rest)
    | .key :: rest => do
      let (key, rest) ← readNodeOr [.value, .comma, .flowMappingEnd] false steps rest
      let (value, rest) ← readValueOr [.comma, .flowMappingEnd] false steps rest
      let (entries, rest) ← readFlowMapping false steps rest
      return ((key, value) :: entries, rest)
    | items => do
      let (key, rest) ← readNode false steps items
      let (entries, rest) ← readFlowMapping false steps rest
      return ((key, .empty) :: entries, rest)

end

/-!
### Documents
-/

/-- The document whose content the items are, if no other document follows. -/
def readDocument (items : List Item) : Option Document := do
  let (root, rest) ←
    readNodeOr [.documentStart, .documentEnd] false (4 * items.length + 4) items
  if rest.all (· == .documentEnd) then some (document root) else none

/-- The one document of a YAML text.  There is none in an empty text, and none where the
text cannot be read or holds more than one.  Behind directives a document has a border at its
start. -/
def read (s : Text) : Option Document := do
  let items ← itemsOf s
  let directed := items.head? == some .directive
  match items.dropWhile (· == .directive) with
  | [] => none
  | [.documentStart] => some (document .empty)
  | .documentStart :: rest => readDocument rest
  | .documentEnd :: _ => none
  | items => if directed then none else readDocument items

end Swatch.Yaml
