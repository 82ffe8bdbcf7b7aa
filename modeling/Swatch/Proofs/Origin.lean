/-
Module: Swatch.Proofs.Origin
Purpose: Whatever is read comes from tokens of the source and stands where it may stand.
Main exports:
  Tree.Holds, HoldsAll, holdsAll_trees, Node.Drawn, DrawnAll, drawnAll_of_parse
-/
import Swatch.Proofs.Outline
import Swatch.Proofs.Reading

namespace Swatch

section Origin

variable {P : Token → Prop}

/-!
### Trees of certain tokens
-/

mutual

/-- All tokens of the tree are of a kind, and each block starts with a token that opens
it. -/
def Tree.Holds (P : Token → Prop) : Tree → Prop
  | .leaf lexeme => P lexeme.token
  | .block bracket opener children _ _ =>
    (opener.token.opens? = some bracket ∧ P opener.token) ∧ HoldsAll P children

/-- All tokens of the trees are of a kind. -/
def HoldsAll (P : Token → Prop) : List Tree → Prop
  | [] => True
  | t :: rest => t.Holds P ∧ HoldsAll P rest

end

theorem holdsAll_iff {ts : List Tree} : HoldsAll P ts ↔ ∀ t ∈ ts, t.Holds P := by
  induction ts with
  | nil => simp [HoldsAll]
  | cons t rest ih => simp [HoldsAll, ih]

theorem HoldsAll.reverse {ts : List Tree} (holds : HoldsAll P ts) : HoldsAll P ts.reverse := by
  rw [holdsAll_iff] at holds ⊢
  exact fun t member => holds t (List.mem_reverse.mp member)

theorem HoldsAll.sublist {ts us : List Tree} (sub : us.Sublist ts) (holds : HoldsAll P ts) :
    HoldsAll P us := by
  rw [holdsAll_iff] at holds ⊢
  exact fun t member => holds t (sub.subset member)

/-- All tokens of an open block are of a kind, and it starts with a token that opens it. -/
def OpenBlock.Holds (P : Token → Prop) (b : OpenBlock) : Prop :=
  (b.opener.token.opens? = some b.bracket ∧ P b.opener.token) ∧ HoldsAll P b.before

/-- All tokens of a nesting are of a kind. -/
structure Nesting.Holds (P : Token → Prop) (n : Nesting) : Prop where
  blocks : ∀ b ∈ n.blocks, b.Holds P
  done : HoldsAll P n.done

theorem Nesting.Holds.push {n : Nesting} (holds : n.Holds P) {lexeme : Lexeme}
    (token : P lexeme.token) : (n.push lexeme).Holds P := by
  obtain ⟨blocks, done⟩ := n
  obtain ⟨opened, read⟩ := holds
  rw [Nesting.push]
  cases opens : lexeme.token.opens? with
  | some bracket =>
      exact ⟨List.forall_mem_cons.mpr ⟨⟨⟨opens, token⟩, read⟩, opened⟩, trivial⟩
  | none =>
      cases blocks with
      | nil => exact ⟨opened, token, read⟩
      | cons inner outer =>
          obtain ⟨⟨opener, before⟩, others⟩ := List.forall_mem_cons.mp opened
          dsimp only
          split
          next => exact ⟨others, ⟨opener, read.reverse⟩, before⟩
          next => exact ⟨opened, token, read⟩

theorem holdsAll_finish (stop : Position) {blocks : List OpenBlock} {done : List Tree}
    (opened : ∀ b ∈ blocks, b.Holds P)
    (read : HoldsAll P done) : HoldsAll P (Nesting.finish stop blocks done) := by
  induction blocks generalizing done with
  | nil => exact read.reverse
  | cons inner outer ih =>
      obtain ⟨⟨opener, before⟩, others⟩ := List.forall_mem_cons.mp opened
      exact ih others ⟨⟨opener, read.reverse⟩, before⟩

/-- The trees of a source hold its tokens. -/
theorem holdsAll_trees {source : Text} (all : ∀ t ∈ tokens source, P t) :
    HoldsAll P (trees source) := by
  have nested (ls : List Lexeme) (n : Nesting) (holds : n.Holds P)
      (tokens : ∀ l ∈ ls, P l.token) : (ls.foldl Nesting.push n).Holds P := by
    induction ls generalizing n with
    | nil => exact holds
    | cons l ls ih =>
        obtain ⟨first, more⟩ := List.forall_mem_cons.mp tokens
        exact ih (n.push l) (holds.push first) more
  have whole : ((lexemes source).foldl Nesting.push {}).Holds P :=
    nested (lexemes source) {} ⟨nofun, trivial⟩
      fun l member => all l.token (List.mem_map_of_mem member)
  exact holdsAll_finish _ whole.blocks whole.done

/-- What every scanned token is, all tokens of a text are. -/
theorem forall_mem_tokens (scanned : ∀ c s, P (scan c s).1) (source : Text) :
    ∀ t ∈ tokens source, P t := by
  have all (here : Position) : ∀ l ∈ lexemesFrom here source, P l.token := by
    fun_induction lexemesFrom here source with
    | case1 => exact List.forall_mem_nil _
    | case2 here c s token taken read text ih =>
        have first : P token := by
          have holds := scanned c s
          rw [read] at holds
          exact holds
        exact List.forall_mem_cons.mpr ⟨first, ih⟩
  intro t member
  obtain ⟨l, found, rfl⟩ := List.mem_map.mp member
  exact all {} l found

/-!
### Items of certain tokens
-/

/-- A text that is the spelling of trees whose tokens are of a kind. -/
def Spelled (commas : Bool) (P : Token → Prop) (w : Text) : Prop :=
  ∃ ts, HoldsAll P ts ∧ writeValue commas ts = .ok w

mutual

/-- An item that stands in a list where it may stand, and whose names and texts come from
tokens of a kind. -/
def Node.Drawn (commas : Bool) (P : Token → Prop) (kind : ItemList) : Node → Prop
  | .rule selector children =>
    kind ≠ .declarations ∧ Spelled commas P selector ∧ DrawnAll commas P .declarations children
  | .atBlock name params children =>
    P (.atKeyword name) ∧ Spelled commas P params ∧
      DrawnAll commas P (blockList name) children
  | .atStatement name params => P (.atKeyword name) ∧ Spelled commas P params
  | .declaration d => kind = .declarations ∧ P (.ident d.property) ∧ Spelled commas P d.value
  | .comment text => ∃ whole, P (.comment whole) ∧ trim whole = text

/-- Items whose names and texts come from tokens of a kind. -/
def DrawnAll (commas : Bool) (P : Token → Prop) (kind : ItemList) : List Node → Prop
  | [] => True
  | n :: rest => n.Drawn commas P kind ∧ DrawnAll commas P kind rest

end

/-- An item that is being read, with tokens of a kind. -/
def Reading.Drawn (P : Token → Prop) (kind : ItemList) : Reading → Prop
  | .between _ _ => True
  | .encoding => True
  | .atRule name params => P (.atKeyword name) ∧ HoldsAll P params
  | .rule selector => kind ≠ .declarations ∧ HoldsAll P selector
  | .declaration _ name body => kind = .declarations ∧ P (.ident name) ∧ HoldsAll P body
  | .stray _ _ => True

variable {commas : Bool} {kind : ItemList} {stop : Position}

theorem DrawnAll.append {front back : List Node} (first : DrawnAll commas P kind front)
    (second : DrawnAll commas P kind back) : DrawnAll commas P kind (front ++ back) := by
  induction front with
  | nil => exact second
  | cons n front ih => exact ⟨first.1, ih first.2⟩

theorem holds_token {t : Tree} (holds : t.Holds P) : P t.token := by
  cases t with
  | leaf lexeme => exact holds
  | block bracket opener children last closed => exact holds.1.2

theorem Reading.drawn_begin {t : Tree} (holds : t.Holds P) (fresh : Bool) :
    (Reading.begin kind fresh t).Drawn P kind := by
  have token := holds_token holds
  rw [Reading.begin]
  split
  next name same =>
    rw [same] at token
    split
    next => trivial
    next => exact ⟨token, trivial⟩
  next name same =>
    rw [same] at token
    split
    next list => exact ⟨list, token, trivial⟩
    next list => exact ⟨list, holds, trivial⟩
  next =>
    split
    next => trivial
    next list => exact ⟨list, holds, trivial⟩

theorem drawn_start (list : ItemList) : (Reading.start list).Drawn P kind := trivial

theorem Reading.Drawn.push {state : Reading} (drawn : state.Drawn P kind) {t : Tree}
    (holds : t.Holds P) : (state.push kind t).Drawn P kind := by
  cases state with
  | between keeps fresh => exact drawn_begin holds fresh
  | encoding => trivial
  | atRule name params => exact ⟨drawn.1, holds, drawn.2⟩
  | rule selector => exact ⟨drawn.1, holds, drawn.2⟩
  | declaration property name body => exact ⟨drawn.1, drawn.2.1, holds, drawn.2.2⟩
  | stray first rest => trivial

/-- A declaration that is read has the property it was begun with and a value of its
trees. -/
theorem drawn_readDeclaration {item property : Text} {body : List Tree} {d : Declaration}
    (holds : HoldsAll P body)
    (read : readDeclaration commas stop item property body = .ok d) :
    d.property = property ∧ Spelled commas P d.value := by
  rw [← toOption_eq_some, toOption_readDeclaration] at read
  split at read
  next => cases read
  next colon after same =>
    have rest : HoldsAll P (colon :: after) := by
      rw [← same]
      exact holds.sublist (List.dropWhile_sublist _)
    split at read
    next =>
      rw [Option.bind_eq_some_iff] at read
      obtain ⟨value, written, read⟩ := read
      rw [Option.map_eq_some_iff] at read
      obtain ⟨important, -, rfl⟩ := read
      exact ⟨rfl, valuePart after, rest.2.sublist (List.takeWhile_sublist _),
        toOption_eq_some.mp written⟩
    next => cases read

/-- An item that ends before its block comes from the tokens that were read of it. -/
theorem drawnAll_endItem {ending : Text} {state : Reading} (drawn : state.Drawn P kind)
    {done : List Node} (read : endItem commas stop ending state = .ok done) :
    DrawnAll commas P kind done := by
  rw [← toOption_eq_some] at read
  cases state with
  | between keeps fresh =>
      cases read
      trivial
  | encoding =>
      cases read
      trivial
  | rule selector => cases read
  | stray first rest => cases read
  | atRule name params =>
      rw [endItem, toOption_bind, Option.bind_eq_some_iff] at read
      obtain ⟨text, written, read⟩ := read
      cases read
      exact ⟨⟨drawn.1, params.reverse, drawn.2.reverse, toOption_eq_some.mp written⟩, trivial⟩
  | declaration property name body =>
      rw [endItem, toOption_bind, Option.bind_eq_some_iff] at read
      obtain ⟨d, declared, read⟩ := read
      cases read
      obtain ⟨same, value⟩ :=
        drawn_readDeclaration drawn.2.2.reverse (toOption_eq_some.mp declared)
      refine ⟨⟨drawn.1, ?_, value⟩, trivial⟩
      rw [same]
      exact drawn.2.1

theorem drawn_readLeaf {state after : Reading} {lexeme : Lexeme} {done : List Node}
    (drawn : state.Drawn P kind) (token : P lexeme.token)
    (read : readLeaf commas kind state lexeme = .ok (after, done)) :
    after.Drawn P kind ∧ DrawnAll commas P kind done := by
  rw [readLeaf.eq_def] at read
  split at read
  next =>
    cases read
    exact ⟨trivial, trivial⟩
  next keeps fresh text comment =>
    rw [comment] at token
    cases read
    refine ⟨trivial, ?_⟩
    split
    next => exact ⟨⟨text, token, rfl⟩, trivial⟩
    next => trivial
  next =>
    split at read
    next =>
      cases read
      exact ⟨trivial, trivial⟩
    next =>
      cases read
      exact ⟨Reading.drawn_begin (t := .leaf lexeme) token _, trivial⟩
  next =>
    cases read
    exact ⟨trivial, trivial⟩
  next selector semicolon =>
    cases read
    exact ⟨⟨drawn.1, token, drawn.2⟩, trivial⟩
  next =>
    rw [← toOption_eq_some, toOption_bind, Option.bind_eq_some_iff] at read
    obtain ⟨nodes, ended, read⟩ := read
    cases read
    exact ⟨trivial, drawnAll_endItem drawn (toOption_eq_some.mp ended)⟩
  next =>
    cases read
    exact ⟨drawn.push token, trivial⟩

/-- What a block is, with tokens of a kind. -/
def BlockRole.Drawn (P : Token → Prop) (kind : ItemList) : BlockRole → Prop
  | .rule selector => kind ≠ .declarations ∧ HoldsAll P selector
  | .atRule name params => P (.atKeyword name) ∧ HoldsAll P params
  | .skipped => True
  | .part => True

theorem drawn_blockRole {state : Reading} (drawn : state.Drawn P kind) (bracket : Bracket) :
    (blockRole kind state bracket).Drawn P kind := by
  cases bracket with
  | round => trivial
  | square => trivial
  | curly =>
      cases state with
      | between keeps fresh =>
          rw [blockRole]
          split
          next => trivial
          next list => exact ⟨list, trivial⟩
      | encoding => trivial
      | atRule name params => exact ⟨drawn.1, drawn.2.reverse⟩
      | rule selector => exact ⟨drawn.1, drawn.2.reverse⟩
      | declaration property name body => trivial
      | stray first rest => trivial

mutual

theorem drawn_readTree {kind : ItemList} {state after : Reading} {t : Tree} {done : List Node}
    (drawn : state.Drawn P kind) (holds : t.Holds P)
    (read : readTree commas kind state t = .ok (after, done)) :
    after.Drawn P kind ∧ DrawnAll commas P kind done := by
  cases t with
  | leaf lexeme => exact drawn_readLeaf drawn holds read
  | block bracket opener children last closed =>
      have role := drawn_blockRole drawn bracket
      rcases readTree_block_cases read with
        ⟨selector, text, nodes, same, written, inner, rfl, rfl⟩ |
        ⟨name, params, text, nodes, same, written, inner, rfl, rfl⟩ | ⟨-, rfl, rfl⟩ | ⟨-, rfl, rfl⟩
      · rw [same] at role
        have inside := drawnAll_readItems (drawn_start .declarations) holds.2 inner
        exact ⟨trivial, ⟨role.1, ⟨selector, role.2, written⟩, inside⟩, trivial⟩
      · rw [same] at role
        have inside := drawnAll_readItems (drawn_start (blockList name)) holds.2 inner
        exact ⟨trivial, ⟨role.1, ⟨params, role.2, written⟩, inside⟩, trivial⟩
      · exact ⟨trivial, trivial⟩
      · exact ⟨drawn.push holds, trivial⟩

/-- Items are drawn from the tokens of the trees that they are read from. -/
theorem drawnAll_readItems {kind : ItemList} {stop : Position} {state : Reading}
    {ts : List Tree} {nodes : List Node} (drawn : state.Drawn P kind) (holds : HoldsAll P ts)
    (read : readItems commas kind stop state ts = .ok nodes) :
    DrawnAll commas P kind nodes := by
  cases ts with
  | nil => exact drawnAll_endItem drawn read
  | cons t rest =>
      obtain ⟨after, done, more, step, behind, rfl⟩ := readItems_cons_eq_ok.mp read
      obtain ⟨later, items⟩ := drawn_readTree drawn holds.1 step
      exact items.append (drawnAll_readItems later holds.2 behind)

end

mutual

theorem Node.Drawn.texts {kind : ItemList} {n : Node} (drawn : n.Drawn commas P kind) :
    AllTexts (Spelled commas P) [n] := by
  cases n with
  | rule selector children => exact allTexts_rule.mpr ⟨drawn.2.1, drawn.2.2.texts⟩
  | atBlock name params children => exact allTexts_atBlock.mpr ⟨drawn.2.1, drawn.2.2.texts⟩
  | atStatement name params => exact allTexts_atStatement.mpr drawn.2
  | declaration d => exact allTexts_declaration.mpr drawn.2.2
  | comment text => exact allTexts_comment text

/-- All texts of items are spelled from tokens of the kind they are drawn from. -/
theorem DrawnAll.texts {kind : ItemList} {nodes : List Node}
    (drawn : DrawnAll commas P kind nodes) : AllTexts (Spelled commas P) nodes := by
  cases nodes with
  | nil => exact allTexts_nil
  | cons n rest => exact allTexts_cons.mpr ⟨drawn.1.texts, drawn.2.texts⟩

end

/-- A style sheet is drawn from the tokens of its source. -/
theorem drawnAll_of_parse {source : Text} {nodes : List Node}
    (scanned : ∀ c s, P (scan c s).1) (read : parse commas source = .ok nodes) :
    DrawnAll commas P .sheet nodes :=
  drawnAll_readItems (drawn_start .sheet)
    (holdsAll_trees (forall_mem_tokens scanned (dropMark source))) read

end Origin

end Swatch
