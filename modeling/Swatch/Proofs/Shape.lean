/-
Module: Swatch.Proofs.Shape
Purpose: Trees without places: what is written and read depends on nothing else of a text.
Main exports:
  Tree.bare, toOption_writeTrees_bareAll, writeTrees_cons_eq_ok, shape, Forms, Forms.trans,
  shape_of_forms
-/
import Swatch.Proofs.Outcome
import Swatch.Proofs.Tokens
import Swatch.Value

namespace Swatch

/-!
### Bare trees

A bare lexeme is its token alone.  Source texts and places occur in errors only, so a bare
tree is read and written like the tree it comes from, as far as there is a result.
-/

/-- A lexeme that is its token alone. -/
def Token.bare (t : Token) : Lexeme := ⟨t, [], {}⟩

@[simp] theorem Token.token_bare (t : Token) : t.bare.token = t := rfl

mutual

/-- The tree with its tokens alone. -/
def Tree.bare : Tree → Tree
  | .leaf lexeme => .leaf lexeme.token.bare
  | .block bracket opener children _ _ =>
    .block bracket opener.token.bare (Tree.bareAll children) {} true

/-- The trees with their tokens alone. -/
def Tree.bareAll : List Tree → List Tree
  | [] => []
  | t :: rest => t.bare :: Tree.bareAll rest

end

namespace Tree

theorem bareAll_eq_map (ts : List Tree) : bareAll ts = ts.map bare := by
  induction ts with
  | nil => rfl
  | cons t rest ih => rw [bareAll, ih, List.map_cons]

@[simp] theorem token_bare (t : Tree) : t.bare.token = t.token := by
  cases t with
  | leaf lexeme => rfl
  | block bracket opener children stop closed => rfl

@[simp] theorem isBlank_bare (t : Tree) : t.bare.isBlank = t.isBlank := by
  rw [isBlank, isBlank, token_bare]

@[simp] theorem isComma_bare (t : Tree) : t.bare.isComma = t.isComma := by
  rw [isComma, isComma, token_bare]

end Tree

mutual

theorem toOption_write_bare (commas : Bool) (t : Tree) :
    (t.bare.write commas).toOption = (t.write commas).toOption := by
  cases t with
  | leaf lexeme =>
      simp only [Tree.bare, Tree.write, Token.token_bare]
      split <;> rfl
  | block bracket opener children stop closed =>
      simp only [Tree.bare, Tree.write, toOption_bind, Token.token_bare,
        toOption_writeTrees_bareAll commas true false false children]

/-- What is written does not depend on where the trees stand. -/
theorem toOption_writeTrees_bareAll (commas nested gap begun : Bool) (ts : List Tree) :
    (writeTrees commas nested gap begun (Tree.bareAll ts)).toOption =
      (writeTrees commas nested gap begun ts).toOption := by
  cases ts with
  | nil => rfl
  | cons t rest =>
      rw [Tree.bareAll, writeTrees, writeTrees, Tree.isBlank_bare, Tree.isComma_bare]
      split
      next => exact toOption_writeTrees_bareAll commas nested _ begun rest
      split
      next => simp only [toOption_bind, toOption_writeTrees_bareAll commas nested true true rest]
      next =>
        simp only [toOption_bind, toOption_write_bare commas t,
          toOption_writeTrees_bareAll commas nested false true rest]

end

/-!
### How trees are written
-/

section Written

variable {commas : Bool} {w : Text}

/-- A token is written as its text, unless it is a broken string or address. -/
theorem write_leaf_eq_ok {lexeme : Lexeme} :
    (Tree.leaf lexeme).write commas = .ok w ↔
      (∀ value, lexeme.token ≠ .badString value) ∧
        (∀ contents, lexeme.token ≠ .badUrl contents) ∧ lexeme.token.text = w := by
  rw [Tree.write]
  split
  next value broken => simp [broken]
  next contents broken => simp [broken]
  next string address =>
    rw [Except.ok.injEq]
    exact ⟨fun same => ⟨string, address, same⟩, fun written => written.2.2⟩

/-- A block is written as its trees between its brackets. -/
theorem write_block_eq_ok {bracket : Bracket} {opener : Lexeme} {children : List Tree}
    {stop : Position} {closed : Bool} :
    (Tree.block bracket opener children stop closed).write commas = .ok w ↔
      ∃ inner, writeTrees commas true false false children = .ok inner ∧
        opener.token.text ++ inner ++ [bracket.closeChar] = w := by
  rw [Tree.write, bind_eq_ok]
  simp only [pure, Except.pure, Except.ok.injEq]

/-- A blank tree is left out, a comma that is spaced is written without the space that is due, and
any other tree is written behind it. -/
theorem writeTrees_cons_eq_ok {nested gap begun : Bool} {t : Tree} {rest : List Tree} :
    writeTrees commas nested gap begun (t :: rest) = .ok w ↔
      (t.isBlank = true ∧
          writeTrees commas nested (gap || begun || (nested && !commas)) begun rest = .ok w) ∨
        (t.isBlank = false ∧ (commas && t.isComma) = true ∧
          ∃ after, writeTrees commas nested true true rest = .ok after ∧ ',' :: after = w) ∨
        (t.isBlank = false ∧ (commas && t.isComma) = false ∧
          ∃ head, t.write commas = .ok head ∧
            ∃ after, writeTrees commas nested false true rest = .ok after ∧
              (if gap then [' '] else []) ++ head ++ after = w) := by
  rw [writeTrees]
  cases t.isBlank with
  | true => simp
  | false =>
      cases commas && t.isComma with
      | true => simp [bind_eq_ok, pure, Except.pure]
      | false => simp [bind_eq_ok, pure, Except.pure]

end Written

/-!
### The shape of a text
-/

/-- The bare trees of a text. -/
def shape (s : Text) : List Tree := Tree.bareAll (trees s)

/-- The normal spelling of a text is that of its shape. -/
theorem writeValue_shape {commas : Bool} {s w : Text} :
    writeValue commas (shape s) = .ok w ↔ normalizeValue commas s = .ok w := by
  have same := toOption_writeTrees_bareAll commas false false false (trees s)
  exact ⟨eq_ok_of_toOption same, eq_ok_of_toOption same.symm⟩

/-- An open block with its tokens alone. -/
def OpenBlock.bare (b : OpenBlock) : OpenBlock :=
  ⟨b.bracket, b.opener.token.bare, Tree.bareAll b.before⟩

/-- A nesting with its tokens alone. -/
def Nesting.bare (n : Nesting) : Nesting :=
  ⟨n.blocks.map OpenBlock.bare, Tree.bareAll n.done⟩

/-- Bare lexemes nest as the lexemes do. -/
theorem Nesting.bare_push (n : Nesting) (lexeme : Lexeme) :
    (n.push lexeme).bare = n.bare.push lexeme.token.bare := by
  obtain ⟨blocks, done⟩ := n
  simp only [Nesting.push, Token.token_bare]
  cases lexeme.token.opens? with
  | some bracket =>
      simp [Nesting.bare, OpenBlock.bare, Tree.bareAll]
  | none =>
      cases blocks with
      | nil => simp [Nesting.bare, Tree.bareAll, Tree.bare]
      | cons inner outer =>
          by_cases closes : lexeme.token = .closing inner.bracket
          · simp [Nesting.bare, closes, Nesting.close, OpenBlock.bare, Tree.bare,
              Tree.bareAll_eq_map, Token.bare]
          · simp [Nesting.bare, closes, OpenBlock.bare, Tree.bareAll, Tree.bare]

theorem Nesting.bare_foldl (n : Nesting) (ls : List Lexeme) :
    (ls.foldl Nesting.push n).bare =
      ((ls.map Lexeme.token).map Token.bare).foldl Nesting.push n.bare := by
  induction ls generalizing n with
  | nil => rfl
  | cons l ls ih => simp only [List.foldl_cons, List.map_cons, ih, Nesting.bare_push]

/-- A text whose blocks are all closed has the shape that its tokens form. -/
theorem shape_of_foldl {s : Text} {ts : List Tree}
    (formed : ((tokens s).map Token.bare).foldl Nesting.push {} = ⟨[], ts.reverse⟩) :
    shape s = ts := by
  have nesting : ((lexemes s).foldl Nesting.push {}).bare = ⟨[], ts.reverse⟩ :=
    (Nesting.bare_foldl {} (lexemes s)).trans formed
  cases read : (lexemes s).foldl Nesting.push {} with
  | mk blocks done =>
      rw [read, Nesting.bare, Nesting.mk.injEq, List.map_eq_nil_iff] at nesting
      obtain ⟨rfl, reversed⟩ := nesting
      rw [Tree.bareAll_eq_map] at reversed
      rw [shape, trees, nest, read, Nesting.finish, Tree.bareAll_eq_map, List.map_reverse,
        reversed, List.reverse_reverse]

/-!
### From one text to a later one
-/

/-- The innermost of the open blocks, if there is one, is in braces. -/
def InBraces (blocks : List OpenBlock) : Prop :=
  ∀ b ∈ blocks.head?, b.bracket = .curly

/-- Reading `s` up to its end part `rest` forms the trees `ts`, in the sheet as in any block
in braces. -/
def Forms (s rest : Text) (ts : List Tree) : Prop :=
  ∃ read, tokens s = read ++ tokens rest ∧
    ∀ blocks done, InBraces blocks →
      (read.map Token.bare).foldl Nesting.push ⟨blocks, done⟩ = ⟨blocks, ts.reverse ++ done⟩

/-- Nothing is read and nothing is formed. -/
theorem Forms.refl (s : Text) : Forms s s [] := ⟨[], rfl, fun _ _ _ => rfl⟩

/-- What is read in two steps forms the trees of both. -/
theorem Forms.trans {s mid rest : Text} {ts us : List Tree} (first : Forms s mid ts)
    (second : Forms mid rest us) : Forms s rest (ts ++ us) := by
  obtain ⟨front, frontTokens, frontForms⟩ := first
  obtain ⟨back, backTokens, backForms⟩ := second
  refine ⟨front ++ back, ?_, fun blocks done inBraces => ?_⟩
  · rw [frontTokens, backTokens, List.append_assoc]
  · rw [List.map_append, List.foldl_append, frontForms blocks done inBraces,
      backForms blocks _ inBraces, List.reverse_append, List.append_assoc]

/-- A token that is no bracket forms a leaf. -/
theorem Forms.leaf {s rest : Text} {t : Token} (read : tokens s = t :: tokens rest)
    (opens : t.opens? = none) (closes : t ≠ .closing .curly) :
    Forms s rest [.leaf t.bare] := by
  refine ⟨[t], read, fun blocks done inBraces => ?_⟩
  cases blocks with
  | nil => simp [Nesting.push, opens]
  | cons inner outer =>
      have curly : inner.bracket = .curly := inBraces inner rfl
      simp [Nesting.push, opens, curly, closes]

/-- A block in braces forms one tree of what is between them. -/
theorem Forms.braces {s rest : Text} {ts : List Tree}
    (inside : Forms s ('\x7d' :: rest) ts) :
    Forms ('\x7b' :: s) rest [.block .curly (Token.opening .curly).bare ts {} true] := by
  obtain ⟨read, readTokens, forms⟩ := inside
  refine ⟨.opening .curly :: (read ++ [.closing .curly]), ?_, fun blocks done inBraces => ?_⟩
  · rw [tokens_openCurly, readTokens, tokens_closeCurly]
    simp
  · have opened : Nesting.push ⟨blocks, done⟩ (Token.opening .curly).bare =
        ⟨⟨.curly, (Token.opening .curly).bare, done⟩ :: blocks, []⟩ := rfl
    rw [List.map_cons, List.foldl_cons, opened, List.map_append, List.foldl_append,
      forms _ _ (by rintro b ⟨⟩; rfl)]
    simp [Nesting.push, Token.opens?, Nesting.close, Token.bare]

/-- Tokens that are no brackets become leaves of the innermost block. -/
theorem foldl_push_leaves {bracket : Bracket} {read : List Token}
    (leaves : ∀ t ∈ read, t.opens? = none ∧ t ≠ .closing bracket) (opener : Lexeme)
    (before : List Tree) (outer : List OpenBlock) (done : List Tree) :
    (read.map Token.bare).foldl Nesting.push ⟨⟨bracket, opener, before⟩ :: outer, done⟩ =
      ⟨⟨bracket, opener, before⟩ :: outer,
        (read.map fun t => Tree.leaf t.bare).reverse ++ done⟩ := by
  induction read generalizing done with
  | nil => rfl
  | cons t read ih =>
      obtain ⟨opens, closes⟩ := leaves t (by simp)
      have pushed : Nesting.push ⟨⟨bracket, opener, before⟩ :: outer, done⟩ t.bare =
          ⟨⟨bracket, opener, before⟩ :: outer, .leaf t.bare :: done⟩ := by
        simp [Nesting.push, opens, closes]
      rw [List.map_cons, List.foldl_cons, pushed,
        ih fun u member => leaves u (List.mem_cons_of_mem t member)]
      simp

/-- A function whose arguments hold no bracket forms one tree of them. -/
theorem Forms.function {s rest : Text} {name : Text} {read : List Token}
    (spelled : tokens s = .function name :: (read ++ .closing .round :: tokens rest))
    (leaves : ∀ t ∈ read, t.opens? = none ∧ t ≠ .closing .round) :
    Forms s rest [.block .round (Token.function name).bare
      (read.map fun t => .leaf t.bare) {} true] := by
  refine ⟨.function name :: (read ++ [.closing .round]), ?_, fun blocks done _ => ?_⟩
  · rw [spelled]
    simp
  · have opened : Nesting.push ⟨blocks, done⟩ (Token.function name).bare =
        ⟨⟨.round, (Token.function name).bare, done⟩ :: blocks, []⟩ := rfl
    rw [List.map_cons, List.foldl_cons, opened, List.map_append, List.foldl_append,
      foldl_push_leaves leaves]
    simp [Nesting.push, Token.opens?, Nesting.close, Token.bare]

theorem shape_of_forms {s : Text} {ts : List Tree} (forms : Forms s [] ts) :
    shape s = ts := by
  obtain ⟨read, readTokens, formed⟩ := forms
  have whole : tokens s = read := by rw [readTokens, tokens_nil, List.append_nil]
  refine shape_of_foldl ?_
  rw [whole, formed [] [] nofun, List.append_nil]

end Swatch
