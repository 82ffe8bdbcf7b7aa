/-
Module: Swatch.Proofs.Framing
Purpose: A computed check that the texts of a style sheet keep to themselves where they are
  printed.
Main exports:
  closesAll, keepsTo, framedText_of_keepsTo, Node.keeps, keepsAll, keepsSheet, framedSheet_of_keeps
-/
import Swatch.Proofs.Cutting
import Swatch.Proofs.Reread

namespace Swatch

/-!
### Texts that close what they open
-/

/-- Whether the tokens close the brackets that are open and all they open themselves, and
close no braces around them. -/
def closesAll : List Bracket → List Token → Bool
  | opened, [] => opened.isEmpty
  | opened, t :: ts =>
    match t.opens? with
    | some bracket => closesAll (bracket :: opened) ts
    | none =>
      match opened with
      | [] => decide (t ≠ .closing .curly) && closesAll [] ts
      | inner :: outer =>
        if t = .closing inner then closesAll outer ts else closesAll (inner :: outer) ts

/-- Blocks that were opened inside other blocks, after the trees `done` of the innermost of
these. -/
def insideBlocks (blocks : List OpenBlock) (done : List Tree) : List OpenBlock → List OpenBlock
  | [] => blocks
  | [b] => { b with before := b.before ++ done } :: blocks
  | b :: c :: more => b :: insideBlocks blocks done (c :: more)

/-- A nesting inside other blocks. -/
def Nesting.inside (blocks : List OpenBlock) (done : List Tree) (n : Nesting) : Nesting :=
  ⟨insideBlocks blocks done n.blocks, if n.blocks = [] then n.done ++ done else n.done⟩

section Inside

variable {blocks : List OpenBlock} {done : List Tree}

/-- A token is nested inside other blocks as it is by itself, unless it closes one of them. -/
theorem Nesting.push_inside (inBraces : InBraces blocks) (n : Nesting) (t : Token)
    (stays : blocks ≠ [] → n.blocks = [] → t.opens? = none → t ≠ .closing .curly) :
    (n.inside blocks done).push t.bare = (n.push t.bare).inside blocks done := by
  obtain ⟨opened, trees⟩ := n
  cases opens : t.opens? with
  | some bracket =>
      cases opened with
      | nil => simp [Nesting.push, opens, Nesting.inside, insideBlocks]
      | cons inner outer => simp [Nesting.push, opens, Nesting.inside, insideBlocks]
  | none =>
      cases opened with
      | nil =>
          cases blocks with
          | nil => simp [Nesting.push, opens, Nesting.inside, insideBlocks]
          | cons around more =>
              have open_ : t ≠ .closing .curly := stays (List.cons_ne_nil around more) rfl opens
              have curly : around.bracket = .curly := inBraces around rfl
              simp [Nesting.push, opens, Nesting.inside, insideBlocks, curly, open_]
      | cons inner outer =>
          by_cases closes : t = .closing inner.bracket
          · subst closes
            cases outer with
            | nil =>
                simp [Nesting.push, Token.opens?, Nesting.inside, insideBlocks, Nesting.close]
            | cons next more =>
                simp [Nesting.push, Token.opens?, Nesting.inside, insideBlocks, Nesting.close]
          · cases outer with
            | nil => simp [Nesting.push, opens, Nesting.inside, insideBlocks, closes]
            | cons next more => simp [Nesting.push, opens, Nesting.inside, insideBlocks, closes]

/-- What is left to close after one more token. -/
theorem closesAll_push {n : Nesting} {t : Token} {ts : List Token}
    (closes : closesAll (n.blocks.map OpenBlock.bracket) (t :: ts) = true) :
    (n.blocks = [] → t.opens? = none → t ≠ .closing .curly) ∧
      closesAll ((n.push t.bare).blocks.map OpenBlock.bracket) ts = true := by
  obtain ⟨opened, trees⟩ := n
  rw [closesAll.eq_def] at closes
  dsimp only at closes
  cases opens : t.opens? with
  | some bracket =>
      rw [opens] at closes
      refine ⟨fun _ none => ?_, ?_⟩
      · cases none
      · simp only [Nesting.push, Token.token_bare, opens]
        exact closes
  | none =>
      rw [opens] at closes
      cases opened with
      | nil =>
          obtain ⟨open_, later⟩ := Bool.and_eq_true_iff.mp closes
          refine ⟨fun _ _ => of_decide_eq_true open_, ?_⟩
          simp only [Nesting.push, Token.token_bare, opens]
          exact later
      | cons inner outer =>
          refine ⟨fun none => ?_, ?_⟩
          · cases none
          · rw [List.map_cons] at closes
            dsimp only at closes
            by_cases same : t = .closing inner.bracket
            · rw [if_pos same] at closes
              simp only [Nesting.push, Token.token_bare, same, if_true]
              exact closes
            · rw [if_neg same] at closes
              simp only [Nesting.push, Token.token_bare, opens, same, if_false]
              exact closes

/-- Tokens that close all they open form the same trees inside other blocks. -/
theorem foldl_push_inside (inBraces : InBraces blocks) {ts : List Token} {n : Nesting}
    (closes : closesAll (n.blocks.map OpenBlock.bracket) ts = true) :
    ∃ formed, (ts.map Token.bare).foldl Nesting.push n = ⟨[], formed⟩ ∧
      (ts.map Token.bare).foldl Nesting.push (n.inside blocks done) =
        ⟨blocks, formed ++ done⟩ := by
  induction ts generalizing n with
  | nil =>
      obtain ⟨opened, trees⟩ := n
      rw [closesAll, List.isEmpty_iff, List.map_eq_nil_iff] at closes
      subst closes
      exact ⟨trees, rfl, rfl⟩
  | cons t ts ih =>
      obtain ⟨stays, later⟩ := closesAll_push closes
      rw [List.map_cons, List.foldl_cons, List.foldl_cons, n.push_inside inBraces t fun _ => stays]
      exact ih later

/-- What the sheet holds before some tokens does not change what they form. -/
theorem foldl_push_below (ts : List Token) (n : Nesting) :
    (ts.map Token.bare).foldl Nesting.push (n.inside [] done) =
      ((ts.map Token.bare).foldl Nesting.push n).inside [] done := by
  have sheet : InBraces [] := nofun
  induction ts generalizing n with
  | nil => rfl
  | cons t ts ih =>
      rw [List.map_cons, List.foldl_cons, List.foldl_cons,
        n.push_inside sheet t fun inside => absurd rfl inside, ih]

end Inside

/-- Whether a text keeps to itself before the character behind it: it is cut there, and closes
all it opens. -/
def keepsTo (stop : Char) (w : Text) : Bool :=
  !w.head?.any isSpace && cutsBefore stop w && closesAll [] (tokens w)

theorem framedText_of_keepsTo {stop : Char} (ends : EndsText stop) {w : Text}
    (keeps : keepsTo stop w = true) : FramedText stop w := by
  simp only [keepsTo, Bool.and_eq_true, Bool.not_eq_true'] at keeps
  obtain ⟨⟨start, cuts⟩, closes⟩ := keeps
  refine ⟨start, fun rest => ⟨tokens w, tokens_append_before ends cuts rest, ?_⟩⟩
  intro blocks done inBraces
  obtain ⟨formed, alone, within⟩ :
      ∃ formed, ((tokens w).map Token.bare).foldl Nesting.push {} = ⟨[], formed⟩ ∧
        ((tokens w).map Token.bare).foldl Nesting.push (Nesting.inside blocks done {}) =
          ⟨blocks, formed ++ done⟩ := foldl_push_inside inBraces closes
  have same : shape w = formed.reverse := shape_of_foldl (by rw [alone, List.reverse_reverse])
  rw [same, List.reverse_reverse]
  exact within

/-!
### Sheets whose texts keep to themselves
-/

/-- Whether a tree can be a part of parameters. -/
def isParam (t : Tree) : Bool := !t.isBraces && decide (t.token ≠ .semicolon)

/-- Whether a tree can be a part of a value. -/
def isValuePart (t : Tree) : Bool := decide (t.token ≠ .semicolon) && !t.isBang

mutual

/-- Whether an item can stand in a list of items and its texts keep to themselves. -/
def Node.keeps (kind : ItemList) : Node → Bool
  | .rule selector children =>
    decide (kind ≠ .declarations) && keepsTo ' ' selector &&
      (shape selector).head?.all (Tree.beginsRule kind) &&
      (shape selector).all (!·.isBraces) && keepsAll .declarations children
  | .atBlock name params children =>
    decide (IsName name) && keepsTo ' ' params && (shape params).all isParam &&
      keepsAll (blockList name) children
  | .atStatement name params =>
    decide (IsName name) && keepsTo ';' params && (shape params).all isParam
  | .declaration d =>
    decide (kind = .declarations) && keepsTo (if d.important then ' ' else ';') d.value &&
      decide (IsName d.property) && (shape d.value).all isValuePart
  | .comment text => decide (trim text = text) && !closesComment text

/-- Whether all items keep to themselves. -/
def keepsAll (kind : ItemList) : List Node → Bool
  | [] => true
  | n :: rest => n.keeps kind && keepsAll kind rest

end

theorem framedParams_of_keepsTo {stop : Char} (ends : EndsText stop) {w : Text}
    (keeps : keepsTo stop w = true) (parts : (shape w).all isParam = true) :
    FramedParams stop w where
  toFramedText := framedText_of_keepsTo ends keeps
  whole := by
    intro t member
    have part := List.all_eq_true.mp parts t member
    simpa [isParam] using part

mutual

theorem Node.framed_of_keeps {kind : ItemList} {n : Node} (keeps : n.keeps kind = true) :
    n.Framed kind := by
  cases n with
  | rule selector children =>
      simp only [Node.keeps, Bool.and_eq_true, decide_eq_true_eq] at keeps
      obtain ⟨⟨⟨⟨rules, text⟩, first⟩, parts⟩, inner⟩ := keeps
      refine ⟨rules, ⟨framedText_of_keepsTo (by decide) text, ?_, ?_⟩, framedAll_of_keeps inner⟩
      · intro t member
        rw [Option.mem_def] at member
        rw [member] at first
        exact first
      · intro t member
        simpa using List.all_eq_true.mp parts t member
  | atBlock name params children =>
      simp only [Node.keeps, Bool.and_eq_true, decide_eq_true_eq] at keeps
      obtain ⟨⟨⟨isName, text⟩, parts⟩, inner⟩ := keeps
      exact ⟨isName, framedParams_of_keepsTo (by decide) text parts, framedAll_of_keeps inner⟩
  | atStatement name params =>
      simp only [Node.keeps, Bool.and_eq_true, decide_eq_true_eq] at keeps
      obtain ⟨⟨isName, text⟩, parts⟩ := keeps
      exact ⟨isName, framedParams_of_keepsTo (by decide) text parts⟩
  | declaration d =>
      simp only [Node.keeps, Bool.and_eq_true, decide_eq_true_eq] at keeps
      obtain ⟨⟨⟨place, text⟩, isName⟩, parts⟩ := keeps
      have ends : EndsText (if d.important then ' ' else ';') := by
        split
        next => decide
        next => decide
      refine ⟨place, framedText_of_keepsTo ends text, isName, ?_⟩
      intro t member
      have part := List.all_eq_true.mp parts t member
      simpa [isValuePart] using part
  | comment text =>
      simp only [Node.keeps, Bool.and_eq_true, decide_eq_true_eq, Bool.not_eq_true'] at keeps
      exact keeps

theorem framedAll_of_keeps {kind : ItemList} {nodes : List Node}
    (keeps : keepsAll kind nodes = true) : FramedAll kind nodes := by
  cases nodes with
  | nil => trivial
  | cons n rest =>
      rw [keepsAll, Bool.and_eq_true] at keeps
      exact ⟨Node.framed_of_keeps keeps.1, framedAll_of_keeps keeps.2⟩

end

/-- Whether a sheet keeps to itself. -/
def keepsSheet (nodes : List Node) : Bool :=
  keepsAll .sheet nodes && !startsEncoding nodes && !startsMark nodes

/-- The check suffices for a sheet whose texts keep to themselves. -/
theorem framedSheet_of_keeps {nodes : List Node} (keeps : keepsSheet nodes = true) :
    FramedSheet nodes := by
  simp only [keepsSheet, Bool.and_eq_true, Bool.not_eq_true'] at keeps
  obtain ⟨⟨items, encoding⟩, mark⟩ := keeps
  exact ⟨framedAll_of_keeps items, encoding, mark⟩

end Swatch
