/-
Module: Swatch.Proofs.Layout
Purpose: Style sheets whose texts keep to themselves, and the trees that they are printed as.
Main exports:
  FramedText, Node.Framed, FramedAll, Node.layout, layoutAll, forms_printItems
-/
import Swatch.Proofs.Shape
import Swatch.Sheet.Print
import Swatch.Sheet.Read

namespace Swatch

/-!
### Texts that keep to themselves

A text is framed where it is printed if reading the printed text again finds it with its own
shape.  How the text is spelled does not count here.
-/

/-- The text has its own shape whatever follows the character `stop` behind it: no token of
it reaches over its end, and it closes all it opens. -/
structure FramedText (stop : Char) (w : Text) : Prop where
  start : Stops isSpace w
  forms : ∀ rest, Forms (w ++ stop :: rest) (stop :: rest) (shape w)

/-- Whether a tree is a pair of braces. -/
def Tree.isBraces : Tree → Bool
  | .block .curly _ _ _ _ => true
  | _ => false

/-- Whether a tree begins a rule in a list of items, and not another item or nothing. -/
def Tree.beginsRule (kind : ItemList) (t : Tree) : Bool :=
  match t.token with
  | .atKeyword _ => false
  | .comment _ => false
  | .whitespace => false
  | token => !isSkipped kind token

/-- A selector that is read again as the selector of a rule. -/
structure FramedSelector (kind : ItemList) (w : Text) : Prop extends FramedText ' ' w where
  begins : ∀ t ∈ (shape w).head?, t.beginsRule kind = true
  whole : ∀ t ∈ shape w, t.isBraces = false

/-- Parameters that are read again as the parameters of an at-rule. -/
structure FramedParams (stop : Char) (w : Text) : Prop extends FramedText stop w where
  whole : ∀ t ∈ shape w, t.isBraces = false ∧ t.token ≠ .semicolon

/-- A declaration whose property and value are read again as what they are. -/
structure Declaration.Framed (d : Declaration) : Prop
    extends FramedText (if d.important then ' ' else ';') d.value where
  name : IsName d.property
  whole : ∀ t ∈ shape d.value, t.token ≠ .semicolon ∧ t.isBang = false

mutual

/-- An item that can stand in a list of items and whose texts are all framed. -/
def Node.Framed (kind : ItemList) : Node → Prop
  | .rule selector children =>
    kind ≠ .declarations ∧ FramedSelector kind selector ∧ FramedAll .declarations children
  | .atBlock name params children =>
    IsName name ∧ FramedParams ' ' params ∧ FramedAll (blockList name) children
  | .atStatement name params => IsName name ∧ FramedParams ';' params
  | .declaration d => kind = .declarations ∧ d.Framed
  | .comment text => trim text = text ∧ closesComment text = false

/-- Items that are all framed. -/
def FramedAll (kind : ItemList) : List Node → Prop
  | [] => True
  | n :: rest => n.Framed kind ∧ FramedAll kind rest

end

/-!
### The trees of printed items
-/

/-- The tree of a token that stands by itself. -/
def Token.tree (t : Token) : Tree := .leaf t.bare

/-- The tree of white space. -/
def space : Tree := Token.whitespace.tree

/-- The tree of a pair of braces. -/
def braces (children : List Tree) : Tree :=
  .block .curly (Token.opening .curly).bare children {} true

/-- The trees of a text with the space behind it.  An empty text adds nothing to the space
before it. -/
def spaced (w : Text) : List Tree := if w = [] then [] else shape w ++ [space]

/-- The trees of a declaration. -/
def Declaration.layout (d : Declaration) : List Tree :=
  (Token.ident d.property).tree :: Token.colon.tree :: space ::
    ((if d.important then
      spaced d.value ++ [(Token.delim '!').tree, (Token.ident "important".toList).tree]
    else shape d.value) ++ [Token.semicolon.tree])

/-- The trees between the name of an at-rule and its semicolon. -/
def statementLayout (params : Text) : List Tree :=
  if params = [] then [] else space :: shape params

mutual

/-- The trees of an item. -/
def Node.layout : Node → List Tree
  | .rule selector children => spaced selector ++ [braces (space :: layoutAll children)]
  | .atBlock name params children =>
    (Token.atKeyword name).tree :: space ::
      (spaced params ++ [braces (space :: layoutAll children)])
  | .atStatement name params =>
    (Token.atKeyword name).tree :: (statementLayout params ++ [Token.semicolon.tree])
  | .declaration d => d.layout
  | .comment text => [(Token.comment (' ' :: (text ++ [' ']))).tree]

/-- The trees of items, each with the end of its line. -/
def layoutAll : List Node → List Tree
  | [] => []
  | n :: rest => n.layout ++ space :: layoutAll rest

end

/-!
### Printing lays out the trees

A run of white space is one token however long it is, so the indent and the empty lines
before an item belong to the end of the line before it.  The statements therefore drop the
white space that a text starts with.
-/

theorem shape_nil : shape [] = [] := shape_of_forms (Forms.refl [])

theorem forms_space {c : Char} (s : Text) (blank : isSpace c = true) :
    Forms (c :: s) (s.dropWhile isSpace) [space] :=
  Forms.leaf (tokens_space s blank) rfl nofun

theorem forms_semicolon (s : Text) : Forms (';' :: s) s [Token.semicolon.tree] :=
  Forms.leaf (tokens_semicolon s) rfl nofun

theorem stops_semicolon (s : Text) : Stops isSpace (';' :: s) := rfl

section Heads

variable {w name params : Text}

/-- A framed text, the space behind it and all space after that. -/
theorem FramedText.forms_spaced (framed : FramedText ' ' w) (rest : Text) :
    Forms ((w ++ ' ' :: rest).dropWhile isSpace) (rest.dropWhile isSpace) (spaced w) := by
  cases w with
  | nil => exact Forms.refl _
  | cons c w =>
      have stops : Stops isSpace (c :: w ++ ' ' :: rest) := framed.start
      rw [dropWhile_of_stops stops, spaced, if_neg (List.cons_ne_nil c w)]
      exact (framed.forms rest).trans (forms_space rest rfl)

theorem forms_atKeyword (isName : IsName name) (rest : Text) (breaks : Breaks rest) :
    Forms ('@' :: (name ++ rest)) rest [(Token.atKeyword name).tree] :=
  Forms.leaf (tokens_atKeyword isName breaks) rfl nofun

/-- The head of a statement with its semicolon. -/
theorem forms_atStatement (isName : IsName name) (framed : FramedText ';' params)
    (rest : Text) :
    Forms (atRuleHead name params ++ ';' :: rest) rest
      ((Token.atKeyword name).tree :: (statementLayout params ++ [Token.semicolon.tree])) := by
  by_cases empty : params = []
  · subst empty
    exact (forms_atKeyword isName (';' :: rest) rfl).trans (forms_semicolon rest)
  · have head : atRuleHead name params ++ ';' :: rest =
        '@' :: (name ++ ' ' :: (params ++ ';' :: rest)) := by
      simp [atRuleHead, empty]
    have blank : Forms (' ' :: (params ++ ';' :: rest)) _ [space] := forms_space _ rfl
    rw [dropWhile_of_stops (stops_append framed.start (stops_semicolon rest))] at blank
    rw [head, statementLayout, if_neg empty]
    exact (forms_atKeyword isName _ (breaks_cons.mpr (by decide))).trans
      (blank.trans ((framed.forms rest).trans (forms_semicolon rest)))

/-- The head of an at-rule with a block, up to the block. -/
theorem forms_atBlock (isName : IsName name) (framed : FramedText ' ' params)
    (rest : Text) :
    Forms (atRuleHead name params ++ ' ' :: rest) (rest.dropWhile isSpace)
      ((Token.atKeyword name).tree :: space :: spaced params) := by
  have split : ∃ tail, atRuleHead name params ++ ' ' :: rest = '@' :: (name ++ ' ' :: tail) ∧
      tail.dropWhile isSpace = (params ++ ' ' :: rest).dropWhile isSpace := by
    by_cases empty : params = []
    · subst empty
      exact ⟨rest, by simp [atRuleHead], rfl⟩
    · exact ⟨params ++ ' ' :: rest, by simp [atRuleHead, empty], rfl⟩
  obtain ⟨tail, head, same⟩ := split
  have blank : Forms (' ' :: tail) _ [space] := forms_space tail rfl
  rw [same] at blank
  rw [head]
  exact (forms_atKeyword isName _ (breaks_cons.mpr (by decide))).trans
    (blank.trans (framed.forms_spaced rest))

/-- A comment with its marks. -/
theorem forms_comment {text : Text} (inside : closesComment text = false) (rest : Text) :
    Forms ("/* ".toList ++ text ++ " */".toList ++ rest) rest
      [(Token.comment (' ' :: (text ++ [' ']))).tree] := by
  have later : closesComment (' ' :: (text ++ [' '])) = false :=
    closesComment_cons.mpr ⟨nofun, closesComment_concat_space inside⟩
  have spelled : "/* ".toList ++ text ++ " */".toList ++ rest =
      '/' :: '*' :: (' ' :: (text ++ [' ']) ++ '*' :: '/' :: rest) := by
    simp
  rw [spelled]
  exact Forms.leaf (tokens_comment rest later) rfl nofun

theorem isName_important : IsName "important".toList := by
  decide

/-- What stands behind the value of an important declaration. -/
theorem forms_important (rest : Text) :
    Forms ('!' :: ("important".toList ++ ';' :: rest)) (';' :: rest)
      [(Token.delim '!').tree, (Token.ident "important".toList).tree] := by
  have bang : Forms ('!' :: ("important".toList ++ ';' :: rest)) _ [(Token.delim '!').tree] :=
    Forms.leaf (tokens_mark rfl) rfl nofun
  have word : Forms ("important".toList ++ ';' :: rest) (';' :: rest)
      [(Token.ident "important".toList).tree] :=
    Forms.leaf (tokens_name isName_important rfl) rfl nofun
  exact bang.trans word

/-- A declaration up to the end of its line. -/
theorem forms_declaration {d : Declaration} (framed : d.Framed) (rest : Text) :
    Forms (d.text ++ rest) ('\n' :: rest) d.layout := by
  have name (tail : Text) : Forms (d.property ++ ':' :: tail) tail
      [(Token.ident d.property).tree, Token.colon.tree] :=
    (Forms.leaf (tokens_name framed.name (breaks_cons.mpr (by decide))) rfl nofun).trans
      (Forms.leaf (tokens_colon tail) rfl nofun)
  have text := framed.toFramedText
  cases important : d.important with
  | false =>
      rw [important] at text
      have spelled : d.text ++ rest =
          d.property ++ ':' :: ' ' :: (d.value ++ ';' :: '\n' :: rest) := by
        delta Declaration.text
        simp [important]
      have blank : Forms (' ' :: (d.value ++ ';' :: '\n' :: rest)) _ [space] :=
        forms_space _ rfl
      rw [dropWhile_of_stops (stops_append text.start (stops_semicolon _))] at blank
      rw [spelled, Declaration.layout, important]
      exact (name _).trans (blank.trans ((text.forms _).trans (forms_semicolon _)))
  | true =>
      rw [important] at text
      have spelled : d.text ++ rest = d.property ++
          ':' :: ' ' :: (d.value ++ ' ' :: '!' :: ("important".toList ++ ';' :: '\n' :: rest)) := by
        delta Declaration.text
        simp [important]
      have blank : Forms (' ' :: (d.value ++ ' ' :: '!' ::
          ("important".toList ++ ';' :: '\n' :: rest))) _ [space] := forms_space _ rfl
      have value := text.forms_spaced ('!' :: ("important".toList ++ ';' :: '\n' :: rest))
      have bang : Stops isSpace ('!' :: ("important".toList ++ ';' :: '\n' :: rest)) := rfl
      rw [dropWhile_of_stops bang] at value
      rw [spelled, Declaration.layout, important, if_pos rfl, List.append_assoc]
      exact (name _).trans (blank.trans (value.trans
        ((forms_important _).trans (forms_semicolon _))))

/-- A declaration starts with its property. -/
theorem stops_declaration {d : Declaration} (framed : d.Framed) (rest : Text) :
    Stops isSpace (d.text ++ rest) := by
  have name := framed.name
  have spelled : ∃ tail, d.text ++ rest = d.property ++ tail := by
    delta Declaration.text
    exact ⟨_, by simp only [List.append_assoc]; rfl⟩
  obtain ⟨tail, spelled⟩ := spelled
  rw [spelled]
  cases property : d.property with
  | nil =>
      rw [property] at name
      exact absurd name not_isName_nil
  | cons c word =>
      rw [property] at name
      rcases name.cases with start | ⟨rfl, -⟩
      · exact stops_cons.mpr (isSpace_of_isNameStart start)
      · rfl

end Heads

/-!
### Whole items
-/

section Print

variable {s : FormatSettings}

/-- Settings that can be used indent by white space. -/
theorem isSpace_margin (valid : s.validate = .ok ()) (depth : Nat) :
    ∀ c ∈ s.margin depth, isSpace c = true := by
  intro c member
  rw [FormatSettings.margin, List.mem_flatten] at member
  obtain ⟨indent, found, inside⟩ := member
  rw [List.eq_of_mem_replicate found] at inside
  have all : s.indent.all (fun c => c == ' ' || c == '\t') = true := by
    rw [FormatSettings.validate] at valid
    split at valid
    next => cases valid
    next =>
      split at valid
      next all => exact all
      next => cases valid
  have blank := List.all_eq_true.mp all c inside
  rw [Bool.or_eq_true, beq_iff_eq, beq_iff_eq] at blank
  rcases blank with rfl | rfl <;> rfl

theorem dropWhile_margin (valid : s.validate = .ok ()) (depth : Nat) (rest : Text) :
    (s.margin depth ++ rest).dropWhile isSpace = rest.dropWhile isSpace :=
  List.dropWhile_append_of_pos (isSpace_margin valid depth)

/-- A block with what is printed in it, and the end of its line. -/
theorem forms_braces (valid : s.validate = .ok ()) (depth : Nat) {inner rest : Text}
    {ts : List Tree}
    (inside : Forms ((inner ++ (s.margin depth ++ '\x7d' :: '\n' :: rest)).dropWhile isSpace)
      ((s.margin depth ++ '\x7d' :: '\n' :: rest).dropWhile isSpace) ts) :
    Forms ('\x7b' :: '\n' :: (inner ++ (s.margin depth ++ '\x7d' :: '\n' :: rest)))
      (rest.dropWhile isSpace) [braces (space :: ts), space] := by
  have close : Stops isSpace ('\x7d' :: '\n' :: rest) := rfl
  rw [dropWhile_margin valid depth ('\x7d' :: '\n' :: rest), dropWhile_of_stops close] at inside
  have line : Forms ('\n' :: (inner ++ (s.margin depth ++ '\x7d' :: '\n' :: rest))) _ [space] :=
    forms_space _ rfl
  exact (Forms.braces (line.trans inside)).trans (forms_space rest rfl)

theorem dropWhile_gap (previous : Option Node) (n : Node) (rest : Text) :
    (s.gap previous n ++ rest).dropWhile isSpace = rest.dropWhile isSpace := by
  refine List.dropWhile_append_of_pos fun c member => ?_
  cases previous with
  | none => cases member
  | some previous =>
      rw [FormatSettings.gap] at member
      split at member
      next =>
        rw [List.mem_singleton.mp member]
        rfl
      next => cases member

theorem printItem_rule (depth : Nat) (selector : Text) (children : List Node) (rest : Text) :
    printItem s depth (.rule selector children) ++ rest =
      s.margin depth ++ (selector ++ ' ' :: '\x7b' :: '\n' ::
        (printItems s (depth + 1) none children ++
          (s.margin depth ++ '\x7d' :: '\n' :: rest))) := by
  rw [printItem]
  simp

theorem printItem_atBlock (depth : Nat) (name params : Text) (children : List Node)
    (rest : Text) :
    printItem s depth (.atBlock name params children) ++ rest =
      s.margin depth ++ (atRuleHead name params ++ ' ' :: '\x7b' :: '\n' ::
        (printItems s (depth + 1) none children ++
          (s.margin depth ++ '\x7d' :: '\n' :: rest))) := by
  rw [printItem]
  simp

theorem printItem_atStatement (depth : Nat) (name params rest : Text) :
    printItem s depth (.atStatement name params) ++ rest =
      s.margin depth ++ (atRuleHead name params ++ ';' :: '\n' :: rest) := by
  rw [printItem]
  simp

theorem printItem_declaration (depth : Nat) (d : Declaration) (rest : Text) :
    printItem s depth (.declaration d) ++ rest = s.margin depth ++ (d.text ++ rest) := by
  rw [printItem, List.append_assoc]

theorem printItem_comment (depth : Nat) (text rest : Text) :
    printItem s depth (.comment text) ++ rest =
      s.margin depth ++ ("/* ".toList ++ text ++ " */".toList ++ '\n' :: rest) := by
  rw [printItem]
  simp

theorem printItems_cons (keeps : s.stripComments = false) (depth : Nat)
    (previous : Option Node) (n : Node) (more : List Node) (rest : Text) :
    printItems s depth previous (n :: more) ++ rest =
      s.gap previous n ++
        (printItem s depth n ++ (printItems s depth (some n) more ++ rest)) := by
  rw [printItems, keeps]
  simp

mutual

/-- A printed item has its layout, with the end of its line. -/
theorem forms_printItem (valid : s.validate = .ok ()) (keeps : s.stripComments = false)
    {kind : ItemList} (depth : Nat) {n : Node}
    (framed : n.Framed kind) (rest : Text) :
    Forms ((printItem s depth n ++ rest).dropWhile isSpace) (rest.dropWhile isSpace)
      (n.layout ++ [space]) := by
  cases n with
  | rule selector children =>
      obtain ⟨-, head, inner⟩ := framed
      have block := forms_braces valid depth
        (forms_printItems valid keeps (depth + 1) none inner
          (s.margin depth ++ '\x7d' :: '\n' :: rest))
      rw [printItem_rule, dropWhile_margin valid, Node.layout, List.append_assoc]
      exact (head.forms_spaced _).trans block
  | atBlock name params children =>
      obtain ⟨isName, head, inner⟩ := framed
      have block := forms_braces valid depth
        (forms_printItems valid keeps (depth + 1) none inner
          (s.margin depth ++ '\x7d' :: '\n' :: rest))
      have at_ (tail : Text) : Stops isSpace (atRuleHead name params ++ tail) := rfl
      rw [printItem_atBlock, dropWhile_margin valid, Node.layout, dropWhile_of_stops (at_ _)]
      have opener (tail : Text) : Stops isSpace ('\x7b' :: tail) := rfl
      have keyword := forms_atBlock isName head.toFramedText ('\x7b' :: '\n' ::
        (printItems s (depth + 1) none children ++ (s.margin depth ++ '\x7d' :: '\n' :: rest)))
      rw [dropWhile_of_stops (opener _)] at keyword
      have whole := keyword.trans block
      simp only [List.cons_append, List.append_assoc] at whole ⊢
      exact whole
  | atStatement name params =>
      obtain ⟨isName, head⟩ := framed
      have at_ (tail : Text) : Stops isSpace (atRuleHead name params ++ tail) := rfl
      rw [printItem_atStatement, dropWhile_margin valid, Node.layout, dropWhile_of_stops (at_ _)]
      exact (forms_atStatement isName head.toFramedText _).trans (forms_space rest rfl)
  | declaration d =>
      obtain ⟨-, framed⟩ := framed
      have start : Stops isSpace (d.text ++ rest) := stops_declaration framed rest
      rw [printItem_declaration, dropWhile_margin valid, Node.layout, dropWhile_of_stops start]
      exact (forms_declaration framed rest).trans (forms_space rest rfl)
  | comment text =>
      obtain ⟨-, inside⟩ := framed
      have slash : Stops isSpace
          ("/* ".toList ++ text ++ " */".toList ++ '\n' :: rest) := rfl
      rw [printItem_comment, dropWhile_margin valid, Node.layout, dropWhile_of_stops slash]
      exact (forms_comment inside _).trans (forms_space rest rfl)

/-- Printed items have their layout. -/
theorem forms_printItems (valid : s.validate = .ok ()) (keeps : s.stripComments = false)
    {kind : ItemList} (depth : Nat) (previous : Option Node)
    {nodes : List Node} (framed : FramedAll kind nodes) (rest : Text) :
    Forms ((printItems s depth previous nodes ++ rest).dropWhile isSpace)
      (rest.dropWhile isSpace) (layoutAll nodes) := by
  cases nodes with
  | nil => exact Forms.refl _
  | cons n more =>
      obtain ⟨first, later⟩ := framed
      rw [printItems_cons keeps, dropWhile_gap, layoutAll]
      have whole := (forms_printItem valid keeps depth first _).trans
        (forms_printItems valid keeps depth (some n) later rest)
      rw [List.append_assoc] at whole
      exact whole

end

end Print

end Swatch
