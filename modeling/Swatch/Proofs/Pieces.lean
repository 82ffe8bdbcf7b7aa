/-
Module: Swatch.Proofs.Pieces
Purpose: Nested tokens as one run of tokens, each with its part in the nesting.
Main exports:
  Piece, Tree.pieces, arrange, leftOpen, piecesAll_trees, marks, marks_arrange_twins, spell,
  writeValue_spell, exists_writeTrees
-/
import Swatch.Proofs.Lines
import Swatch.Proofs.Nested
import Swatch.Proofs.Rescan

namespace Swatch

/-!
### Pieces of trees
-/

/-- A token with its part in the nesting. -/
structure Piece where
  role : Role
  token : Token
deriving DecidableEq, Repr

mutual

/-- The tokens of a tree in order.  A block ends with its bracket, also where the end of the text
closed it. -/
def Tree.pieces : Tree → List Piece
  | .leaf lexeme => [⟨.inside, lexeme.token⟩]
  | .block bracket opener children _ _ =>
    ⟨.opens, opener.token⟩ :: (piecesAll children ++ [⟨.closes, .closing bracket⟩])

/-- The tokens of neighbouring trees in order. -/
def piecesAll : List Tree → List Piece
  | [] => []
  | t :: rest => t.pieces ++ piecesAll rest

end

theorem piecesAll_append (front back : List Tree) :
    piecesAll (front ++ back) = piecesAll front ++ piecesAll back := by
  induction front with
  | nil => rfl
  | cons t rest ih => rw [List.cons_append, piecesAll, piecesAll, ih, List.append_assoc]

/-!
### Pieces of tokens
-/

/-- Whether a token closes the innermost of the open blocks. -/
def Token.closes (stack : List Bracket) (t : Token) : Bool :=
  stack.head?.any fun bracket => t == .closing bracket

/-- The part of a token behind open blocks, innermost first. -/
def Token.role (stack : List Bracket) (t : Token) : Role :=
  if t.opens?.isSome then .opens else if t.closes stack then .closes else .inside

/-- The blocks that are open behind a token. -/
def Token.leaves (stack : List Bracket) (t : Token) : List Bracket :=
  match t.opens? with
  | some bracket => bracket :: stack
  | none => if t.closes stack then stack.tail else stack

/-- The pieces that tokens form behind open blocks, up to the end of the last one. -/
def arrange : (stack : List Bracket) → List Token → List Piece
  | stack, [] => stack.map fun bracket => ⟨.closes, .closing bracket⟩
  | stack, t :: ts => ⟨t.role stack, t⟩ :: arrange (t.leaves stack) ts

/-- The blocks that are open behind tokens. -/
def leftOpen : (stack : List Bracket) → List Token → List Bracket
  | stack, [] => stack
  | stack, t :: ts => leftOpen (t.leaves stack) ts

/-- What stands behind tokens is arranged as what is open behind them says. -/
theorem arrange_append (stack : List Bracket) (ts us : List Token) :
    arrange stack (ts ++ us) =
      (arrange stack ts).take ts.length ++ arrange (leftOpen stack ts) us := by
  induction ts generalizing stack with
  | nil => rfl
  | cons t ts ih =>
      rw [List.cons_append, arrange, ih, arrange, List.length_cons, List.take_succ_cons,
        List.cons_append, leftOpen]

/-- The brackets that close what is left open are not broken. -/
theorem whole_arrange_iff (stack : List Bracket) (ts : List Token) :
    (∀ p ∈ arrange stack ts, p.token.isBroken = false) ↔ ∀ t ∈ ts, t.isBroken = false := by
  induction ts generalizing stack with
  | nil => simp [arrange, Token.isBroken]
  | cons t ts ih => rw [arrange, List.forall_mem_cons, List.forall_mem_cons, ih]

/-- The open blocks of a nesting, innermost first. -/
def Nesting.stack (n : Nesting) : List Bracket := n.blocks.map OpenBlock.bracket

/-- The tokens read into open blocks. -/
def openPieces : List OpenBlock → List Piece
  | [] => []
  | b :: outer => openPieces outer ++ piecesAll b.before.reverse ++ [⟨.opens, b.opener.token⟩]

/-- The tokens read into a nesting. -/
def Nesting.pieces (n : Nesting) : List Piece := openPieces n.blocks ++ piecesAll n.done.reverse

theorem Nesting.push_pieces (n : Nesting) (lexeme : Lexeme) :
    (n.push lexeme).pieces = n.pieces ++ [⟨lexeme.token.role n.stack, lexeme.token⟩] ∧
      (n.push lexeme).stack = lexeme.token.leaves n.stack := by
  obtain ⟨blocks, done⟩ := n
  rw [Nesting.push, Token.role, Token.leaves]
  cases opens : lexeme.token.opens? with
  | some bracket => simp [Nesting.pieces, Nesting.stack, openPieces, piecesAll]
  | none =>
      cases blocks with
      | nil => simp [Nesting.pieces, Nesting.stack, openPieces, piecesAll, piecesAll_append,
          Tree.pieces, Token.closes]
      | cons inner outer =>
          by_cases closes : lexeme.token = .closing inner.bracket
          · simp [Nesting.pieces, Nesting.stack, openPieces, piecesAll, piecesAll_append,
              Tree.pieces, Token.closes, Nesting.close, closes]
          · simp [Nesting.pieces, Nesting.stack, openPieces, piecesAll, piecesAll_append,
              Tree.pieces, Token.closes, closes]

theorem piecesAll_finish (stop : Position) (blocks : List OpenBlock) (done : List Tree) :
    piecesAll (Nesting.finish stop blocks done) =
      Nesting.pieces ⟨blocks, done⟩ ++ arrange (Nesting.stack ⟨blocks, done⟩) [] := by
  induction blocks generalizing done with
  | nil => simp [Nesting.finish, Nesting.pieces, Nesting.stack, openPieces, arrange]
  | cons inner outer ih =>
      rw [Nesting.finish, ih]
      simp [Nesting.pieces, Nesting.stack, openPieces, arrange, piecesAll_append, piecesAll,
        Tree.pieces]

/-- The pieces of a text are those of its tokens. -/
theorem piecesAll_trees (s : Text) : piecesAll (trees s) = arrange [] (tokens s) := by
  have nested (stop : Position) (ls : List Lexeme) (n : Nesting) :
      piecesAll (Nesting.finish stop (ls.foldl Nesting.push n).blocks
        (ls.foldl Nesting.push n).done) = n.pieces ++ arrange n.stack (ls.map Lexeme.token) := by
    induction ls generalizing n with
    | nil => exact piecesAll_finish stop n.blocks n.done
    | cons l ls ih =>
        obtain ⟨pieces, stack⟩ := n.push_pieces l
        rw [List.foldl_cons, ih, pieces, stack, List.map_cons, arrange, List.append_assoc,
          List.singleton_append]
  exact nested _ (lexemes s) {}

/-!
### What counts of pieces
-/

/-- The tokens that are not blank. -/
def significant (ts : List Token) : List Token := ts.filter fun t => !t.isBlank

theorem significant_blank {t : Token} (blank : t.isBlank = true) (ts : List Token) :
    significant (t :: ts) = significant ts := by
  simp [significant, blank]

theorem significant_dark {t : Token} (dark : t.isBlank = false) (ts : List Token) :
    significant (t :: ts) = t :: significant ts := by
  simp [significant, dark]

/-- What counts of a run of pieces: the part of each token in the nesting and how it is printed.
White space and comments do not count. -/
def marks (ps : List Piece) : List (Role × Text) :=
  (ps.filter fun p => !p.token.isBlank).map fun p => (p.role, p.token.text)

theorem Token.opens_of_isBlank {t : Token} (blank : t.isBlank = true) : t.opens? = none := by
  cases t with
  | whitespace => rfl
  | comment text => rfl
  | _ => cases blank

theorem Token.isBroken_of_isBlank {t : Token} (blank : t.isBlank = true) : t.isBroken = false := by
  cases t with
  | whitespace => rfl
  | comment text => rfl
  | _ => cases blank

theorem marks_blank {p : Piece} (blank : p.token.isBlank = true) (ps : List Piece) :
    marks (p :: ps) = marks ps := by
  simp [marks, blank]

theorem marks_dark {p : Piece} (dark : p.token.isBlank = false) (ps : List Piece) :
    marks (p :: ps) = (p.role, p.token.text) :: marks ps := by
  simp [marks, dark]

theorem marks_append (front back : List Piece) :
    marks (front ++ back) = marks front ++ marks back := by
  simp [marks]

mutual

/-- The pieces of a tree spell out what counts of it. -/
theorem marks_pieces {t : Tree} (holds : t.Holds fun _ => True) :
    marks t.pieces = Nested.marksAll t.nested := by
  cases t with
  | leaf lexeme =>
      rw [Tree.pieces, Tree.nested]
      cases blank : lexeme.token.isBlank with
      | true => exact marks_blank blank []
      | false => exact marks_dark (p := ⟨.inside, lexeme.token⟩) blank []
  | block bracket opener children stop closed =>
      obtain ⟨⟨opens, -⟩, inside⟩ := holds
      have dark : opener.token.isBlank = false := by
        cases blank : opener.token.isBlank with
        | false => rfl
        | true =>
            rw [Token.opens_of_isBlank blank] at opens
            cases opens
      have inner := marks_piecesAll inside
      have closer : marks [⟨.closes, .closing bracket⟩] = [(.closes, [bracket.closeChar])] := rfl
      rw [Tree.pieces, Tree.nested, Nested.marksAll, Nested.marks, ← inner,
        marks_dark (p := ⟨.opens, opener.token⟩) dark, marks_append, closer, Nested.marksAll,
        List.append_nil]

/-- The pieces of trees spell out what counts of them. -/
theorem marks_piecesAll {ts : List Tree} (holds : HoldsAll (fun _ => True) ts) :
    marks (piecesAll ts) = Nested.marksAll (nestedAll ts) := by
  cases ts with
  | nil => rfl
  | cons t ts =>
      obtain ⟨first, more⟩ := holds
      rw [piecesAll, nestedAll, marks_append, marksAll_append, marks_pieces first,
        marks_piecesAll more]

end

/-- What counts of a text, as one run of its tokens. -/
theorem marksAll_meaning (s : Text) :
    Nested.marksAll (meaning s) = marks (arrange [] (tokens s)) := by
  rw [meaning, ← marks_piecesAll (holdsAll_trees fun _ _ => trivial), piecesAll_trees]

/-- A blank token has no part in the nesting. -/
theorem Token.leaves_of_isBlank {t : Token} (blank : t.isBlank = true) (stack : List Bracket) :
    t.leaves stack = stack := by
  have closes : t.closes stack = false := by
    cases stack with
    | nil => rfl
    | cons bracket outer =>
        cases t with
        | whitespace => rfl
        | comment text => rfl
        | _ => cases blank
  rw [Token.leaves, Token.opens_of_isBlank blank, closes]
  rfl

theorem marks_arrange_significant (stack : List Bracket) (ts : List Token) :
    marks (arrange stack (significant ts)) = marks (arrange stack ts) := by
  induction ts generalizing stack with
  | nil => rfl
  | cons t ts ih =>
      cases blank : t.isBlank with
      | true =>
          rw [significant_blank blank, ih, arrange, Token.leaves_of_isBlank blank]
          exact (marks_blank (p := ⟨t.role stack, t⟩) blank _).symm
      | false =>
          rw [significant_dark blank, arrange, arrange, marks_dark (p := ⟨t.role stack, t⟩) blank,
            marks_dark (p := ⟨t.role stack, t⟩) blank, ih]

/-- Twins have the same part in the nesting. -/
theorem Token.Twin.closes_eq {u t : Token} (twin : u.Twin t) (stack : List Bracket) :
    u.closes stack = t.closes stack := by
  cases stack with
  | nil => rfl
  | cons bracket outer =>
      rw [Bool.eq_iff_iff]
      simpa [Token.closes] using twin.closes bracket

theorem Token.Twin.role_eq {u t : Token} (twin : u.Twin t) (stack : List Bracket) :
    u.role stack = t.role stack := by
  rw [Token.role, Token.role, twin.opens, twin.closes_eq]

theorem Token.Twin.leaves_eq {u t : Token} (twin : u.Twin t) (stack : List Bracket) :
    u.leaves stack = t.leaves stack := by
  rw [Token.leaves, Token.leaves, twin.opens, twin.closes_eq]

theorem marks_arrange_twins {us ts : List Token} (twins : List.Forall₂ Token.Twin us ts)
    (stack : List Bracket) : marks (arrange stack us) = marks (arrange stack ts) := by
  induction twins generalizing stack with
  | nil => rfl
  | @cons u t us ts twin rest ih =>
      rw [arrange, arrange, twin.role_eq, twin.leaves_eq]
      cases blank : t.isBlank with
      | true =>
          rw [marks_blank (p := ⟨t.role stack, t⟩) blank,
            marks_blank (p := ⟨t.role stack, u⟩) (twin.blank.trans blank), ih]
      | false =>
          rw [marks_dark (p := ⟨t.role stack, t⟩) blank,
            marks_dark (p := ⟨t.role stack, u⟩) (twin.blank.trans blank), ih, twin.text]

/-- Blank tokens are not broken. -/
theorem whole_significant_iff {ts : List Token} :
    (∀ t ∈ significant ts, t.isBroken = false) ↔ ∀ t ∈ ts, t.isBroken = false := by
  refine ⟨fun whole t member => ?_, fun whole t member => whole t (List.mem_filter.mp member).1⟩
  cases blank : t.isBlank with
  | true => exact Token.isBroken_of_isBlank blank
  | false => exact whole t (List.mem_filter.mpr ⟨member, by simp [blank]⟩)

theorem whole_iff_of_twins {us ts : List Token} (twins : List.Forall₂ Token.Twin us ts) :
    (∀ u ∈ us, u.isBroken = false) ↔ ∀ t ∈ ts, t.isBroken = false := by
  induction twins with
  | nil => exact Iff.rfl
  | cons twin rest ih => rw [List.forall_mem_cons, List.forall_mem_cons, twin.broken, ih]

/-- The bracket of the innermost block closes it. -/
theorem leaves_closing (bracket : Bracket) (outer : List Bracket) :
    (Token.closing bracket).role (bracket :: outer) = .closes ∧
      (Token.closing bracket).leaves (bracket :: outer) = outer := by
  have closes : (Token.closing bracket).closes (bracket :: outer) = true := by
    simp [Token.closes]
  rw [Token.role, Token.leaves, closes]
  exact ⟨rfl, rfl⟩

/-- To close all blocks by their brackets changes nothing. -/
theorem arrange_closed (stack : List Bracket) (ts : List Token) :
    arrange stack ((arrange stack ts).map Piece.token) = arrange stack ts := by
  induction ts generalizing stack with
  | nil =>
      induction stack with
      | nil => rfl
      | cons bracket outer ih =>
          obtain ⟨role, leaves⟩ := leaves_closing bracket outer
          have opened : arrange (bracket :: outer) [] =
              ⟨.closes, .closing bracket⟩ :: arrange outer [] := rfl
          rw [opened, List.map_cons, arrange.eq_2, role, leaves, ih]
  | cons t ts ih => rw [arrange, List.map_cons, arrange, ih]

/-!
### Writing pieces
-/

/-- Whether comma spacing swallows the space before a piece: that of a comma and of the end of a
block. -/
def Piece.swallows (p : Piece) : Bool := p.token == .comma || p.role == .closes

/-- The spelling of pieces.  A space is due where `gap` says so, and blank pieces make it due
where `begun` says that they count. -/
def spell (commas gap begun : Bool) : List Piece → Text
  | [] => []
  | p :: rest =>
    if p.token.isBlank then spell commas (gap || begun) begun rest
    else
      (if gap && !(commas && p.swallows) then [' '] else []) ++ p.token.text ++
        spell commas (commas && p.token == .comma) (!(commas && p.role == .opens)) rest

section Writing

variable {commas : Bool}

theorem spell_blank {p : Piece} (blank : p.token.isBlank = true) (gap begun : Bool)
    (rest : List Piece) :
    spell commas gap begun (p :: rest) = spell commas (gap || begun) begun rest := by
  rw [spell, if_pos blank]

/-- A piece that is neither blank nor a comma that brings its own space. -/
theorem spell_cons {p : Piece} (dark : p.token.isBlank = false)
    (comma : (commas && p.token == .comma) = false) (gap begun : Bool) (rest : List Piece) :
    spell commas gap begun (p :: rest) =
      (if gap && !(commas && p.role == .closes) then [' '] else []) ++ p.token.text ++
        spell commas false (!(commas && p.role == .opens)) rest := by
  rw [spell, if_neg (by rw [dark]; exact Bool.false_ne_true), comma, Piece.swallows,
    Bool.and_or_distrib_left, comma, Bool.false_or]

/-- A tree that starts with a token that opens no block is a leaf. -/
theorem leaf_of_opens {t : Tree} (holds : t.Holds fun _ => True) (opens : t.token.opens? = none) :
    ∃ lexeme, t = .leaf lexeme := by
  cases t with
  | leaf lexeme => exact ⟨lexeme, rfl⟩
  | block bracket opener children stop closed =>
      have opened : opener.token.opens? = some bracket := holds.1.1
      rw [show opener.token.opens? = none from opens] at opened
      cases opened

mutual

/-- A tree is written as its pieces are spelled. -/
theorem write_spell {t : Tree} {w : Text} (holds : t.Holds fun _ => True)
    (dark : t.isBlank = false) (comma : (commas && t.isComma) = false)
    (written : t.write commas = .ok w) :
    (∀ p ∈ t.pieces, p.token.isBroken = false) ∧
      ∀ gap begun after, spell commas gap begun (t.pieces ++ after) =
        (if gap then [' '] else []) ++ w ++ spell commas false true after := by
  cases t with
  | leaf lexeme =>
      obtain ⟨string, address, rfl⟩ := write_leaf_eq_ok.mp written
      refine ⟨?_, fun gap begun after => ?_⟩
      · rw [Tree.pieces, List.forall_mem_singleton]
        generalize lexeme.token = t at string address
        cases t with
        | badString value => exact absurd rfl (string value)
        | badUrl contents => exact absurd rfl (address contents)
        | _ => rfl
      · rw [Tree.pieces, List.singleton_append,
          spell_cons (p := ⟨.inside, lexeme.token⟩) dark comma]
        have closes : (Role.inside == .closes) = false := rfl
        have opens : (Role.inside == .opens) = false := rfl
        simp [closes, opens]
  | block bracket opener children stop closed =>
      obtain ⟨⟨opens, -⟩, inside⟩ := holds
      obtain ⟨inner, read, rfl⟩ := write_block_eq_ok.mp written
      obtain ⟨whole, contents⟩ := writeTrees_spell inside read
      refine ⟨?_, fun gap begun after => ?_⟩
      · rw [Tree.pieces, List.forall_mem_cons, List.forall_mem_append]
        refine ⟨?_, whole, by simp [Token.isBroken]⟩
        generalize opener.token = t at opens
        cases t with
        | function name => rfl
        | opening bracket => rfl
        | _ => cases opens
      · have ends := contents (⟨.closes, .closing bracket⟩ :: after)
          (bracket.closeChar :: spell commas false true after) fun gap begun => by
            rw [spell_cons rfl (by simp)]
            have closes : (Role.closes == .opens) = false := rfl
            simp [Token.text, closes]
        have begins : (!(commas && Role.opens == Role.opens)) = (false || (true && !commas)) := by
          cases commas <;> rfl
        rw [Tree.pieces, List.cons_append, List.append_assoc, List.singleton_append,
          spell_cons (p := ⟨.opens, opener.token⟩) dark comma, begins, ends]
        simp

/-- Neighbouring trees are written as their pieces are spelled.  Behind them stands a text that a
space comes before only where a block keeps the space at its end; in such a block blank pieces
count from its start on. -/
theorem writeTrees_spell {nested gap begun : Bool} {ts : List Tree} {w : Text}
    (holds : HoldsAll (fun _ => True) ts)
    (written : writeTrees commas nested gap begun ts = .ok w) :
    (∀ p ∈ piecesAll ts, p.token.isBroken = false) ∧
      ∀ after rest, (∀ gap begun, spell commas gap begun after =
          (if gap && nested && !commas then [' '] else []) ++ rest) →
        spell commas gap (begun || (nested && !commas)) (piecesAll ts ++ after) = w ++ rest := by
  cases ts with
  | nil =>
      cases written
      exact ⟨List.forall_mem_nil _, fun after rest ends => ends _ _⟩
  | cons t ts =>
      obtain ⟨first, more⟩ := holds
      rcases writeTrees_cons_eq_ok.mp written with ⟨blank, later⟩ |
        ⟨dark, comma, tail, later, rfl⟩ | ⟨dark, comma, head, text, tail, later, rfl⟩
      · obtain ⟨whole, later⟩ := writeTrees_spell more later
        obtain ⟨lexeme, rfl⟩ := leaf_of_opens first (Token.opens_of_isBlank blank)
        refine ⟨?_, fun after rest ends => ?_⟩
        · rw [piecesAll, List.forall_mem_append, Tree.pieces, List.forall_mem_singleton]
          exact ⟨Token.isBroken_of_isBlank blank, whole⟩
        · have tail := later after rest ends
          rw [Bool.or_assoc] at tail
          rw [piecesAll, Tree.pieces, List.append_assoc, List.singleton_append,
            spell_blank (p := ⟨.inside, lexeme.token⟩) blank, tail]
      · obtain ⟨whole, later⟩ := writeTrees_spell more later
        rw [Bool.and_eq_true] at comma
        obtain ⟨rfl, comma⟩ := comma
        have token : t.token = .comma := eq_of_beq comma
        obtain ⟨lexeme, rfl⟩ := leaf_of_opens first (by rw [token]; rfl)
        have token : lexeme.token = .comma := token
        refine ⟨?_, fun after rest ends => ?_⟩
        · rw [piecesAll, List.forall_mem_append, Tree.pieces, List.forall_mem_singleton]
          exact ⟨by rw [token]; rfl, whole⟩
        · have tail := later after rest ends
          rw [Bool.true_or] at tail
          have opens : (Role.inside == .opens) = false := rfl
          rw [piecesAll, Tree.pieces, List.append_assoc, List.singleton_append, spell]
          simp [token, Token.isBlank, Piece.swallows, opens, Token.text, tail]
      · obtain ⟨here, spelled⟩ := write_spell first dark comma text
        obtain ⟨there, later⟩ := writeTrees_spell more later
        refine ⟨?_, fun after rest ends => ?_⟩
        · rw [piecesAll, List.forall_mem_append]
          exact ⟨here, there⟩
        · rw [piecesAll, List.append_assoc, spelled]
          have tail := later after rest ends
          rw [Bool.true_or] at tail
          rw [tail]
          simp

end

/-- A value is written as its pieces are spelled. -/
theorem writeValue_spell {ts : List Tree} {w : Text} (holds : HoldsAll (fun _ => True) ts)
    (written : writeValue commas ts = .ok w) :
    (∀ p ∈ piecesAll ts, p.token.isBroken = false) ∧
      spell commas false false (piecesAll ts) = w := by
  obtain ⟨whole, spelled⟩ := writeTrees_spell holds written
  have alone := spelled [] [] fun gap begun => by simp [spell]
  exact ⟨whole, by simpa using alone⟩

mutual

/-- A tree without broken tokens is written. -/
theorem exists_write {t : Tree} (whole : ∀ p ∈ t.pieces, p.token.isBroken = false) :
    ∃ w, t.write commas = .ok w := by
  cases t with
  | leaf lexeme =>
      rw [Tree.pieces, List.forall_mem_singleton] at whole
      refine ⟨_, write_leaf_eq_ok.mpr ⟨fun value broken => ?_, fun contents broken => ?_, rfl⟩⟩
      · rw [broken] at whole
        cases whole
      · rw [broken] at whole
        cases whole
  | block bracket opener children stop closed =>
      rw [Tree.pieces, List.forall_mem_cons, List.forall_mem_append] at whole
      obtain ⟨inner, read⟩ := exists_writeTrees true false false whole.2.1
      exact ⟨_, write_block_eq_ok.mpr ⟨inner, read, rfl⟩⟩

/-- Neighbouring trees without broken tokens are written. -/
theorem exists_writeTrees (nested gap begun : Bool) {ts : List Tree}
    (whole : ∀ p ∈ piecesAll ts, p.token.isBroken = false) :
    ∃ w, writeTrees commas nested gap begun ts = .ok w := by
  cases ts with
  | nil => exact ⟨_, rfl⟩
  | cons t ts =>
      rw [piecesAll, List.forall_mem_append] at whole
      simp only [writeTrees_cons_eq_ok]
      cases blank : t.isBlank with
      | true =>
          obtain ⟨w, later⟩ := exists_writeTrees nested _ begun whole.2
          exact ⟨w, .inl ⟨rfl, later⟩⟩
      | false =>
          cases comma : commas && t.isComma with
          | true =>
              obtain ⟨after, later⟩ := exists_writeTrees nested true true whole.2
              exact ⟨_, .inr (.inl ⟨rfl, rfl, after, later, rfl⟩)⟩
          | false =>
              obtain ⟨head, text⟩ := exists_write whole.1
              obtain ⟨after, later⟩ := exists_writeTrees nested false true whole.2
              exact ⟨_, .inr (.inr ⟨rfl, rfl, head, text, after, later, rfl⟩)⟩

end

end Writing

end Swatch
