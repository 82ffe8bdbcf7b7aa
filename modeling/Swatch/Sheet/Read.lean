/-
Module: Swatch.Sheet.Read
Purpose: Reading a style sheet from its trees.
Main exports:
  holdsRules, ItemList, Reading, readItems, parse
-/
import Swatch.Sheet.Basic
import Swatch.Value

namespace Swatch

/-!
### At-rules
-/

/-- A vendor mark before the name of an at-rule. -/
def vendorMarks : List Text :=
  ["-webkit-".toList, "-moz-".toList, "-o-".toList, "-ms-".toList]

/-- The at-rules whose block is a list of rules. -/
def ruleHolders : List Text :=
  ["media".toList, "supports".toList, "document".toList, "layer".toList,
    "container".toList, "scope".toList, "starting-style".toList, "keyframes".toList]

/-- Whether the block of an at-rule is a list of rules and not of declarations.  Letter case
and one vendor mark do not count. -/
def holdsRules (name : Text) : Bool :=
  let name := lowercase name
  let bare := (vendorMarks.findSome? (strip? · name)).getD name
  ruleHolders.contains bare

/-!
### Declarations
-/

/-- The source text of an item in an error: without blanks and semicolons at its ends. -/
def itemText (source : Text) : Text :=
  trimEnd ((trim source).reverse.dropWhile (· == ';')).reverse

/-- Whether a tree is the exclamation mark that ends a value. -/
def Tree.isBang (t : Tree) : Bool := t.token == .delim '!'

/-- Whether a tree is the word `important`, in any case. -/
def Tree.isImportant (t : Tree) : Bool :=
  match t.token with
  | .ident name => lowercase name == "important".toList
  | _ => false

/-- Reads what may follow a value.  The answer is whether the declaration is important, or
else the place from which on it makes no sense. -/
def readImportance (stop : Position) (tail : List Tree) : Except Position Bool :=
  match tail with
  | [] => .ok false
  | bang :: after =>
    match Tree.dropBlank after with
    | word :: rest =>
      if word.isImportant then
        if (Tree.dropBlank rest).isEmpty then .ok true else .error (Tree.startOf stop rest)
      else .error bang.start
    | [] => .error bang.start

/-- Reads a declaration of `property` from the trees after the property, which end at
`stop`.  The text `item` is the whole declaration. -/
def readDeclaration (commas : Bool) (stop : Position) (item property : Text)
    (body : List Tree) : Except SheetError Declaration :=
  match Tree.dropBlank body with
  | [] => .error (.invalidDeclaration stop (itemText item))
  | colon :: after =>
    if colon.token = .colon then do
      let value ← writeValue commas (after.takeWhile (!·.isBang))
      match readImportance stop (after.dropWhile (!·.isBang)) with
      | .ok important => return ⟨property, value, important⟩
      | .error place => .error (.invalidDeclaration place (itemText item))
    else .error (.invalidDeclaration (Tree.startOf stop body) (itemText item))

/-!
### Lists of items

Items are read tree by tree.  Between two trees, `Reading` says what the trees since the end
of the last item belong to.
-/

/-- What a list of items may hold: the sheet itself and the blocks of some at-rules hold
rules, all other blocks hold declarations.  At-rules and comments stand in all of them. -/
inductive ItemList where
  | sheet
  | rules
  | declarations
deriving DecidableEq, Repr, Inhabited

/-- The item that is being read, with the trees read of it, latest first. -/
inductive Reading where
  /-- No item has begun.  Comments are kept until something is skipped; `fresh` says that
  no item of the sheet has begun before. -/
  | between (keeps fresh : Bool)
  /-- A leading `@charset`, which is skipped. -/
  | encoding
  | atRule (name : Text) (params : List Tree)
  | rule (selector : List Tree)
  | declaration (property : Tree) (name : Text) (body : List Tree)
  /-- An item that starts with a token that starts nothing here. -/
  | stray (first : Tree) (rest : List Tree)
deriving Repr, Inhabited

namespace Reading

/-- The state at the start of a list. -/
def start (kind : ItemList) : Reading := .between true (kind = .sheet)

/-- The state after an item. -/
def next : Reading := .between true false

/-- Begins an item with its first tree. -/
def begin (kind : ItemList) (fresh : Bool) (t : Tree) : Reading :=
  match t.token with
  | .atKeyword name =>
    if kind = .sheet ∧ fresh ∧ lowercase name = "charset".toList then .encoding
    else .atRule name []
  | .ident name => if kind = .declarations then .declaration t name [] else .rule [t]
  | _ => if kind = .declarations then .stray t [] else .rule [t]

/-- One more tree of the item. -/
def push (kind : ItemList) (t : Tree) : Reading → Reading
  | .between _ fresh => begin kind fresh t
  | .encoding => .encoding
  | .atRule name params => .atRule name (t :: params)
  | .rule selector => .rule (t :: selector)
  | .declaration property name body => .declaration property name (t :: body)
  | .stray first rest => .stray first (t :: rest)

end Reading

/-- Ends an item before its block, at `stop` with the text `ending`: at a semicolon or
at the end of the list. -/
def endItem (commas : Bool) (stop : Position) (ending : Text) :
    Reading → Except SheetError (List Node)
  | .between _ _ => .ok []
  | .encoding => .ok []
  | .atRule name params => do
    let params ← writeValue commas params.reverse
    return [.atStatement name params]
  | .rule selector =>
    .error (.invalidRule stop (itemText (Tree.textAll selector.reverse ++ ending)))
  | .declaration property name body => do
    let item := property.text ++ Tree.textAll body.reverse ++ ending
    let declaration ← readDeclaration commas stop item name body.reverse
    return [.declaration declaration]
  | .stray first rest =>
    let item := first.text ++ Tree.textAll rest.reverse ++ ending
    .error (.invalidDeclaration first.start (itemText item))

/-- Whether a token is skipped between items, so that comments after it are lost. -/
def isSkipped (kind : ItemList) (token : Token) : Bool :=
  match kind with
  | .sheet => token == .commentOpen || token == .commentClose
  | .rules => false
  | .declarations => token == .semicolon

/-- Reads a lexeme that stands by itself. -/
def readLeaf (commas : Bool) (kind : ItemList) (state : Reading) (lexeme : Lexeme) :
    Except SheetError (Reading × List Node) :=
  match state, lexeme.token with
  | .between keeps fresh, .whitespace => .ok (.between keeps fresh, [])
  | .between keeps fresh, .comment text =>
    .ok (.between keeps fresh, if keeps then [.comment (trim text)] else [])
  | .between keeps fresh, token =>
    if isSkipped kind token then .ok (.between false fresh, [])
    else .ok ((Reading.between keeps fresh).push kind (.leaf lexeme), [])
  | .encoding, .semicolon => .ok (.between false false, [])
  | .rule selector, .semicolon => .ok (.rule (.leaf lexeme :: selector), [])
  | state, .semicolon => do
    let nodes ← endItem commas lexeme.start lexeme.text state
    return (.next, nodes)
  | state, _ => .ok (state.push kind (.leaf lexeme), [])

/-- What a block in braces is, in the place where it stands. -/
inductive BlockRole where
  /-- The block of a rule with this selector. -/
  | rule (selector : List Tree)
  /-- The block of an at-rule with these parameters. -/
  | atRule (name : Text) (params : List Tree)
  /-- The end of what is skipped. -/
  | skipped
  /-- A part of the item. -/
  | part

/-- The role of a block.  Only braces have one; a declaration may hold braces. -/
def blockRole (kind : ItemList) (state : Reading) (bracket : Bracket) : BlockRole :=
  match bracket, state with
  | .curly, .between _ _ => if kind = .declarations then .part else .rule []
  | .curly, .encoding => .skipped
  | .curly, .rule selector => .rule selector.reverse
  | .curly, .atRule name params => .atRule name params.reverse
  | _, _ => .part

/-- The list that the block of an at-rule holds. -/
def blockList (name : Text) : ItemList :=
  if holdsRules name then .rules else .declarations

mutual

/-- Reads one tree of a list of items: the state after it, and the items that it
completes. -/
def readTree (commas : Bool) (kind : ItemList) (state : Reading) :
    Tree → Except SheetError (Reading × List Node)
  | .leaf lexeme => readLeaf commas kind state lexeme
  | .block bracket opener children stop closed =>
    match blockRole kind state bracket with
    | .rule selector => do
      let selector ← writeValue commas selector
      let nodes ← readItems commas .declarations stop (.start .declarations) children
      return (.next, [.rule selector nodes])
    | .atRule name params => do
      let params ← writeValue commas params
      let nodes ←
        readItems commas (blockList name) stop (.start (blockList name)) children
      return (.next, [.atBlock name params nodes])
    | .skipped => .ok (.between false false, [])
    | .part => .ok (state.push kind (.block bracket opener children stop closed), [])

/-- Reads the rest of a list of items that ends at `stop`. -/
def readItems (commas : Bool) (kind : ItemList) (stop : Position) (state : Reading) :
    List Tree → Except SheetError (List Node)
  | [] => endItem commas stop [] state
  | t :: rest => do
    let (state, done) ← readTree commas kind state t
    let nodes ← readItems commas kind stop state rest
    return done ++ nodes

end

/-!
### Style sheets
-/

/-- The text without one leading byte order mark. -/
def dropMark : Text → Text
  | '\uFEFF' :: s => s
  | s => s

/-- Reads a style sheet.  With `commas`, selectors, parameters and values get the normal
comma spacing. -/
def parse (commas : Bool) (source : Text) : Except SheetError (List Node) :=
  let source := dropMark source
  readItems commas .sheet (Position.advance {} source) (.start .sheet) (trees source)

end Swatch
