/-
Module: Swatch.Proofs.Reading
Purpose: What a tree does to the item that is being read, and that the items that are read depend
  on the shape of a text alone.
Main exports:
  readTree_block_cases, readItems_cons_eq_ok, Reading.bare, toOption_readItems_bareAll
-/
import Swatch.Proofs.Shape
import Swatch.Sheet.Read

namespace Swatch

/-!
### What is read of a tree
-/

section Step

variable {commas : Bool} {kind : ItemList} {stop : Position} {state after : Reading}
  {done nodes : List Node}

/-- A block is that of a rule or of an at-rule, or it is skipped, or it is a part of the item. -/
theorem readTree_block_cases {bracket : Bracket} {opener : Lexeme} {children : List Tree}
    {closed : Bool}
    (read : readTree commas kind state (.block bracket opener children stop closed) =
      .ok (after, done)) :
    (∃ selector text inner, blockRole kind state bracket = .rule selector ∧
        writeValue commas selector = .ok text ∧
        readItems commas .declarations stop (.start .declarations) children = .ok inner ∧
        after = .next ∧ done = [.rule text inner]) ∨
      (∃ name params text inner, blockRole kind state bracket = .atRule name params ∧
        writeValue commas params = .ok text ∧
        readItems commas (blockList name) stop (.start (blockList name)) children = .ok inner ∧
        after = .next ∧ done = [.atBlock name text inner]) ∨
      (blockRole kind state bracket = .skipped ∧ after = .between false false ∧ done = []) ∨
      (blockRole kind state bracket = .part ∧
        after = state.push kind (.block bracket opener children stop closed) ∧ done = []) := by
  rw [readTree] at read
  cases role : blockRole kind state bracket with
  | rule selector =>
      simp only [role, bind_eq_ok] at read
      obtain ⟨text, written, inner, inside, same⟩ := read
      cases same
      exact .inl ⟨selector, text, inner, rfl, written, inside, rfl, rfl⟩
  | atRule name params =>
      simp only [role, bind_eq_ok] at read
      obtain ⟨text, written, inner, inside, same⟩ := read
      cases same
      exact .inr (.inl ⟨name, params, text, inner, rfl, written, inside, rfl, rfl⟩)
  | skipped =>
      rw [role] at read
      cases read
      exact .inr (.inr (.inl ⟨rfl, rfl, rfl⟩))
  | part =>
      rw [role] at read
      cases read
      exact .inr (.inr (.inr ⟨rfl, rfl, rfl⟩))

/-- The items are those that a tree completes, and what is read of the rest behind it. -/
theorem readItems_cons_eq_ok {t : Tree} {rest : List Tree} :
    readItems commas kind stop state (t :: rest) = .ok nodes ↔
      ∃ after done later, readTree commas kind state t = .ok (after, done) ∧
        readItems commas kind stop after rest = .ok later ∧ nodes = done ++ later := by
  rw [readItems, bind_eq_ok]
  constructor
  · rintro ⟨⟨after, done⟩, step, read⟩
    obtain ⟨later, behind, same⟩ := bind_eq_ok.mp read
    cases same
    exact ⟨after, done, later, step, behind, rfl⟩
  · rintro ⟨after, done, later, step, behind, rfl⟩
    exact ⟨(after, done), step, bind_eq_ok.mpr ⟨later, behind, rfl⟩⟩

end Step

/-!
### Bare declarations
-/

namespace Tree

@[simp] theorem isBang_bare (t : Tree) : t.bare.isBang = t.isBang := by
  rw [isBang, isBang, token_bare]

@[simp] theorem isImportant_bare (t : Tree) : t.bare.isImportant = t.isImportant := by
  rw [isImportant, isImportant, token_bare]

theorem dropBlank_bareAll (ts : List Tree) :
    dropBlank (bareAll ts) = bareAll (dropBlank ts) := by
  induction ts with
  | nil => rfl
  | cons t rest ih =>
      cases blank : t.isBlank with
      | true => simpa [dropBlank, bareAll, blank] using ih
      | false => simp [dropBlank, bareAll, blank]

end Tree

/-- The trees of a value. -/
def valuePart (ts : List Tree) : List Tree := ts.takeWhile (!·.isBang)

/-- The trees from the exclamation mark on. -/
def importancePart (ts : List Tree) : List Tree := ts.dropWhile (!·.isBang)

theorem valuePart_bareAll (ts : List Tree) :
    valuePart (Tree.bareAll ts) = Tree.bareAll (valuePart ts) := by
  induction ts with
  | nil => rfl
  | cons t rest ih =>
      cases bang : t.isBang with
      | true => simp [valuePart, Tree.bareAll, bang]
      | false => simpa [valuePart, Tree.bareAll, bang] using ih

theorem importancePart_bareAll (ts : List Tree) :
    importancePart (Tree.bareAll ts) = Tree.bareAll (importancePart ts) := by
  induction ts with
  | nil => rfl
  | cons t rest ih =>
      cases bang : t.isBang with
      | true => simp [importancePart, Tree.bareAll, bang]
      | false => simpa [importancePart, Tree.bareAll, bang] using ih

theorem toOption_readImportance_bareAll (stop here : Position) (tail : List Tree) :
    (readImportance here (Tree.bareAll tail)).toOption =
      (readImportance stop tail).toOption := by
  cases tail with
  | nil => rfl
  | cons bang after =>
      simp only [readImportance, Tree.bareAll, Tree.dropBlank_bareAll]
      cases Tree.dropBlank after with
      | nil => rfl
      | cons word rest =>
          simp only [Tree.bareAll, Tree.isImportant_bare, Tree.dropBlank_bareAll]
          cases Tree.dropBlank rest with
          | nil => split <;> rfl
          | cons t more => split <;> rfl

/-- What a declaration is read as, errors apart. -/
theorem toOption_readDeclaration (commas : Bool) (stop : Position) (item property : Text)
    (body : List Tree) :
    (readDeclaration commas stop item property body).toOption =
      match Tree.dropBlank body with
      | [] => none
      | colon :: after =>
        if colon.token = .colon then
          (writeValue commas (valuePart after)).toOption.bind fun value =>
            (readImportance stop (importancePart after)).toOption.map fun important =>
              ⟨property, value, important⟩
        else none := by
  rw [readDeclaration]
  cases Tree.dropBlank body with
  | nil => rfl
  | cons colon after =>
      dsimp only
      by_cases isColon : colon.token = .colon
      · rw [if_pos isColon, if_pos isColon, toOption_bind]
        change (writeValue commas (valuePart after)).toOption.bind _ = _
        congr 1
        funext value
        rw [importancePart]
        cases readImportance stop (after.dropWhile (!·.isBang)) with
        | ok important => rfl
        | error place => rfl
      · rw [if_neg isColon, if_neg isColon]
        rfl

theorem toOption_readDeclaration_bareAll (commas : Bool) (stop here : Position)
    (item text property : Text) (body : List Tree) :
    (readDeclaration commas here text property (Tree.bareAll body)).toOption =
      (readDeclaration commas stop item property body).toOption := by
  rw [toOption_readDeclaration, toOption_readDeclaration, Tree.dropBlank_bareAll]
  cases Tree.dropBlank body with
  | nil => rfl
  | cons colon after =>
      simp only [Tree.bareAll, Tree.token_bare, valuePart_bareAll, importancePart_bareAll,
        writeValue, toOption_writeTrees_bareAll,
        toOption_readImportance_bareAll stop here]

/-!
### Bare states
-/

namespace Reading

/-- The state with the tokens of its trees alone. -/
def bare : Reading → Reading
  | .between keeps fresh => .between keeps fresh
  | .encoding => .encoding
  | .atRule name params => .atRule name (Tree.bareAll params)
  | .rule selector => .rule (Tree.bareAll selector)
  | .declaration property name body => .declaration property.bare name (Tree.bareAll body)
  | .stray first rest => .stray first.bare (Tree.bareAll rest)

theorem bare_begin (kind : ItemList) (fresh : Bool) (t : Tree) :
    (begin kind fresh t).bare = begin kind fresh t.bare := by
  rw [begin, begin, Tree.token_bare]
  split
  next => split <;> rfl
  next => split <;> rfl
  next => split <;> rfl

theorem bare_push (kind : ItemList) (t : Tree) (state : Reading) :
    (state.push kind t).bare = state.bare.push kind t.bare := by
  cases state with
  | between keeps fresh => exact bare_begin kind fresh t
  | encoding => rfl
  | atRule name params => rfl
  | rule selector => rfl
  | declaration property name body => rfl
  | stray first rest => rfl

end Reading

theorem bareAll_reverse (ts : List Tree) :
    Tree.bareAll ts.reverse = (Tree.bareAll ts).reverse := by
  rw [Tree.bareAll_eq_map, Tree.bareAll_eq_map, List.map_reverse]

theorem toOption_endItem_bare (commas : Bool) (stop here : Position) (ending text : Text)
    (state : Reading) :
    (endItem commas here text state.bare).toOption =
      (endItem commas stop ending state).toOption := by
  cases state with
  | between keeps fresh => rfl
  | encoding => rfl
  | atRule name params =>
      simp only [Reading.bare, endItem, toOption_bind, ← bareAll_reverse, writeValue,
        toOption_writeTrees_bareAll]
  | rule selector => rfl
  | declaration property name body =>
      simp only [Reading.bare, endItem, toOption_bind, ← bareAll_reverse]
      rw [toOption_readDeclaration_bareAll]
  | stray first rest => rfl

/-- The outcome of one step with its state bare. -/
def bareStep (step : Reading × List Node) : Reading × List Node := (step.1.bare, step.2)

/-- An item has begun. -/
def Reading.IsInside (state : Reading) : Prop :=
  ∀ keeps fresh, state = .between keeps fresh → False

theorem Reading.isInside_bare {state : Reading} (inside : state.IsInside) :
    state.bare.IsInside := by
  cases state with
  | between keeps fresh => exact absurd rfl (inside keeps fresh)
  | encoding => exact nofun
  | atRule name params => exact nofun
  | rule selector => exact nofun
  | declaration property name body => exact nofun
  | stray first rest => exact nofun

/-- A lexeme inside an item that is no semicolon becomes a part of it. -/
theorem readLeaf_part (commas : Bool) (kind : ItemList) {state : Reading} {lexeme : Lexeme}
    (inside : state.IsInside) (part : lexeme.token ≠ .semicolon) :
    readLeaf commas kind state lexeme = .ok (state.push kind (.leaf lexeme), []) :=
  readLeaf.eq_7 commas kind lexeme state inside part
    (fun keeps fresh same _ => inside keeps fresh same)
    (fun keeps fresh _ same _ => inside keeps fresh same)
    (fun _ same => part same) (fun _ _ same => part same)

theorem toOption_readLeaf_between (commas : Bool) (kind : ItemList) (keeps fresh : Bool)
    (lexeme : Lexeme) :
    (readLeaf commas kind (.between keeps fresh) lexeme.token.bare).toOption =
      (readLeaf commas kind (.between keeps fresh) lexeme).toOption.map bareStep := by
  by_cases space : lexeme.token = .whitespace
  · rw [readLeaf.eq_1 commas kind lexeme keeps fresh space,
      readLeaf.eq_1 commas kind lexeme.token.bare keeps fresh space]
    rfl
  · by_cases comment : ∃ text, lexeme.token = .comment text
    · obtain ⟨text, comment⟩ := comment
      rw [readLeaf.eq_2 commas kind lexeme keeps fresh text comment,
        readLeaf.eq_2 commas kind lexeme.token.bare keeps fresh text comment]
      rfl
    · have other : ∀ text, lexeme.token = .comment text → False :=
        fun text same => comment ⟨text, same⟩
      rw [readLeaf.eq_3 commas kind lexeme keeps fresh space other,
        readLeaf.eq_3 commas kind lexeme.token.bare keeps fresh space other,
        Token.token_bare]
      split
      next => rfl
      next =>
        have same := Reading.bare_begin kind fresh (.leaf lexeme)
        simp only [Except.toOption, Option.map_some, bareStep, Reading.push, same]
        rfl

theorem toOption_readLeaf_semicolon (commas : Bool) (kind : ItemList) {state : Reading}
    {lexeme : Lexeme} (inside : state.IsInside) (semicolon : lexeme.token = .semicolon) :
    (readLeaf commas kind state.bare lexeme.token.bare).toOption =
      (readLeaf commas kind state lexeme).toOption.map bareStep := by
  have bareInside := Reading.isInside_bare inside
  have ended (st : Reading) (step : st.IsInside)
      (ends : st ≠ .encoding ∧ ∀ selector, st ≠ .rule selector) (l : Lexeme)
      (isSemicolon : l.token = .semicolon) :
      (readLeaf commas kind st l).toOption =
        (endItem commas l.start l.text st).toOption.map fun nodes => (.next, nodes) := by
    rw [readLeaf.eq_6 commas kind l st step ends.1 ends.2 isSemicolon, toOption_bind]
    cases (endItem commas l.start l.text st).toOption with
    | none => rfl
    | some nodes => rfl
  have both (ends : state ≠ .encoding ∧ ∀ selector, state ≠ .rule selector)
      (bareEnds : state.bare ≠ .encoding ∧ ∀ selector, state.bare ≠ .rule selector) :
      (readLeaf commas kind state.bare lexeme.token.bare).toOption =
        (readLeaf commas kind state lexeme).toOption.map bareStep := by
    rw [ended state inside ends lexeme semicolon,
      ended state.bare bareInside bareEnds lexeme.token.bare semicolon,
      toOption_endItem_bare commas lexeme.start _ lexeme.text, Option.map_map]
    rfl
  cases state with
  | between keeps fresh => exact absurd rfl (inside keeps fresh)
  | encoding =>
      rw [Reading.bare, readLeaf.eq_4 commas kind lexeme semicolon,
        readLeaf.eq_4 commas kind lexeme.token.bare semicolon]
      rfl
  | atRule name params => exact both ⟨nofun, nofun⟩ ⟨nofun, nofun⟩
  | rule selector =>
      rw [Reading.bare, readLeaf.eq_5 commas kind lexeme selector semicolon,
        readLeaf.eq_5 commas kind lexeme.token.bare _ semicolon]
      rfl
  | declaration property name body => exact both ⟨nofun, nofun⟩ ⟨nofun, nofun⟩
  | stray first rest => exact both ⟨nofun, nofun⟩ ⟨nofun, nofun⟩

theorem toOption_readLeaf_bare (commas : Bool) (kind : ItemList) (state : Reading)
    (lexeme : Lexeme) :
    (readLeaf commas kind state.bare lexeme.token.bare).toOption =
      (readLeaf commas kind state lexeme).toOption.map bareStep := by
  by_cases between : ∃ keeps fresh, state = .between keeps fresh
  · obtain ⟨keeps, fresh, rfl⟩ := between
    exact toOption_readLeaf_between commas kind keeps fresh lexeme
  · have inside : state.IsInside := fun keeps fresh same => between ⟨keeps, fresh, same⟩
    by_cases semicolon : lexeme.token = .semicolon
    · exact toOption_readLeaf_semicolon commas kind inside semicolon
    · have part : lexeme.token.bare.token ≠ .semicolon := semicolon
      rw [readLeaf_part commas kind inside semicolon,
        readLeaf_part commas kind (Reading.isInside_bare inside) part]
      simp only [Except.toOption, Option.map_some, bareStep, Reading.bare_push]
      rfl

/-!
### Bare items
-/

/-- The role with the tokens of its trees alone. -/
def BlockRole.bare : BlockRole → BlockRole
  | .rule selector => .rule (Tree.bareAll selector)
  | .atRule name params => .atRule name (Tree.bareAll params)
  | .skipped => .skipped
  | .part => .part

theorem blockRole_bare (kind : ItemList) (state : Reading) (bracket : Bracket) :
    blockRole kind state.bare bracket = (blockRole kind state bracket).bare := by
  cases bracket with
  | round => rfl
  | square => rfl
  | curly =>
      cases state with
      | between keeps fresh =>
          simp only [Reading.bare, blockRole]
          split <;> rfl
      | encoding => rfl
      | atRule name params => simp only [Reading.bare, blockRole, BlockRole.bare, bareAll_reverse]
      | rule selector => simp only [Reading.bare, blockRole, BlockRole.bare, bareAll_reverse]
      | declaration property name body => rfl
      | stray first rest => rfl

mutual

theorem toOption_readTree_bare (commas : Bool) (kind : ItemList) (state : Reading)
    (t : Tree) :
    (readTree commas kind state.bare t.bare).toOption =
      (readTree commas kind state t).toOption.map bareStep := by
  cases t with
  | leaf lexeme => exact toOption_readLeaf_bare commas kind state lexeme
  | block bracket opener children stop closed =>
      rw [Tree.bare, readTree, readTree, blockRole_bare]
      cases blockRole kind state bracket with
      | rule selector =>
          have inner : (readItems commas .declarations {} (.start .declarations)
              (Tree.bareAll children)).toOption = _ :=
            toOption_readItems_bareAll commas .declarations stop {} (.start .declarations)
              children
          simp only [BlockRole.bare, toOption_bind, writeValue, toOption_writeTrees_bareAll,
            inner, Option.map_bind, Function.comp_def]
          rfl
      | atRule name params =>
          have inner : (readItems commas (blockList name) {} (.start (blockList name))
              (Tree.bareAll children)).toOption = _ :=
            toOption_readItems_bareAll commas (blockList name) stop {}
              (.start (blockList name)) children
          simp only [BlockRole.bare, toOption_bind, writeValue, toOption_writeTrees_bareAll,
            inner, Option.map_bind, Function.comp_def]
          rfl
      | skipped => rfl
      | part =>
          have pushed := Reading.bare_push kind (.block bracket opener children stop closed) state
          simp only [BlockRole.bare, Except.toOption, Option.map_some, bareStep, pushed]
          rfl

/-- What is read does not depend on where the trees stand. -/
theorem toOption_readItems_bareAll (commas : Bool) (kind : ItemList) (stop here : Position)
    (state : Reading) (ts : List Tree) :
    (readItems commas kind here state.bare (Tree.bareAll ts)).toOption =
      (readItems commas kind stop state ts).toOption := by
  cases ts with
  | nil => exact toOption_endItem_bare commas stop here [] [] state
  | cons t rest =>
      rw [Tree.bareAll, readItems, readItems, toOption_bind, toOption_bind,
        toOption_readTree_bare commas kind state t]
      cases (readTree commas kind state t).toOption with
      | none => rfl
      | some step =>
          obtain ⟨after, done⟩ := step
          simp only [Option.map_some, Option.bind_some, bareStep, toOption_bind,
            toOption_readItems_bareAll commas kind stop here after rest]

end

end Swatch
