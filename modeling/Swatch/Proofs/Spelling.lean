/-
Module: Swatch.Proofs.Spelling
Purpose: Style sheets with every text in its normal spelling.
Main exports:
  respelled, respellAll, NormalAll, respellAll_eq_self, headsAll_respell, outlineAll_respell
-/
import Mathlib.Data.List.Forall2
import Swatch.Proofs.Outline
import Swatch.Proofs.Shape

namespace Swatch

/-!
### Spelling texts anew

Names and comments are printed as they are.  All other texts are spelled from their trees, so
a second reading may spell them in another way.
-/

/-- The normal spelling of a text, if it has one. -/
def respelled (commas : Bool) (w : Text) : Option Text := (normalizeValue commas w).toOption

mutual

/-- The item with its texts in their normal spelling, if they all have one. -/
def Node.respell (commas : Bool) : Node → Option Node
  | .rule selector children => do
    let selector ← respelled commas selector
    let children ← respellAll commas children
    return .rule selector children
  | .atBlock name params children => do
    let params ← respelled commas params
    let children ← respellAll commas children
    return .atBlock name params children
  | .atStatement name params => do
    let params ← respelled commas params
    return .atStatement name params
  | .declaration d => do
    let value ← respelled commas d.value
    return .declaration { d with value }
  | .comment text => some (.comment text)

/-- The items with their texts in their normal spelling. -/
def respellAll (commas : Bool) : List Node → Option (List Node)
  | [] => some []
  | n :: rest => do
    let n ← n.respell commas
    let rest ← respellAll commas rest
    return n :: rest

end

/-- All texts of the items are in their normal spelling. -/
abbrev NormalAll (commas : Bool) (nodes : List Node) : Prop :=
  AllTexts (fun w => respelled commas w = some w) nodes

section Normal

variable {commas : Bool}

theorem respell_rule {selector : Text} {children : List Node} {m : Node} :
    (Node.rule selector children).respell commas = some m ↔
      ∃ text inner, respelled commas selector = some text ∧
        respellAll commas children = some inner ∧ m = .rule text inner := by
  simp [Node.respell, Option.bind_eq_some_iff, @eq_comm _ m]

theorem respell_atBlock {name params : Text} {children : List Node} {m : Node} :
    (Node.atBlock name params children).respell commas = some m ↔
      ∃ text inner, respelled commas params = some text ∧
        respellAll commas children = some inner ∧ m = .atBlock name text inner := by
  simp [Node.respell, Option.bind_eq_some_iff, @eq_comm _ m]

theorem respell_atStatement {name params : Text} {m : Node} :
    (Node.atStatement name params).respell commas = some m ↔
      ∃ text, respelled commas params = some text ∧ m = .atStatement name text := by
  simp [Node.respell, Option.bind_eq_some_iff, @eq_comm _ m]

theorem respell_declaration {d : Declaration} {m : Node} :
    (Node.declaration d).respell commas = some m ↔
      ∃ value, respelled commas d.value = some value ∧ m = .declaration { d with value } := by
  simp [Node.respell, Option.bind_eq_some_iff, @eq_comm _ m]

theorem respellAll_cons {n : Node} {rest others : List Node} :
    respellAll commas (n :: rest) = some others ↔
      ∃ m more, n.respell commas = some m ∧ respellAll commas rest = some more ∧
        others = m :: more := by
  simp [respellAll, Option.bind_eq_some_iff, @eq_comm _ others]

mutual

theorem respell_eq_self (n : Node) :
    n.respell commas = some n ↔ NormalAll commas [n] := by
  cases n with
  | rule selector children =>
      have inner := respellAll_eq_self children
      rw [NormalAll, allTexts_rule]
      simpa [respell_rule] using fun _ => inner
  | atBlock name params children =>
      have inner := respellAll_eq_self children
      rw [NormalAll, allTexts_atBlock]
      simpa [respell_atBlock] using fun _ => inner
  | atStatement name params =>
      rw [NormalAll, allTexts_atStatement]
      simp [respell_atStatement]
  | declaration d =>
      cases d
      rw [NormalAll, allTexts_declaration]
      simp [respell_declaration]
  | comment text => simpa [Node.respell, NormalAll] using allTexts_comment text

/-- Spelling the texts anew changes nothing exactly where they all are in their normal
spelling. -/
theorem respellAll_eq_self (nodes : List Node) :
    respellAll commas nodes = some nodes ↔ NormalAll commas nodes := by
  cases nodes with
  | nil => simpa [respellAll, NormalAll] using allTexts_nil
  | cons n rest =>
      have first := respell_eq_self n
      have more := respellAll_eq_self rest
      rw [NormalAll, allTexts_cons]
      simp [respellAll_cons, first, more, NormalAll]

end

/-!
### What spelling anew leaves alone
-/

mutual

theorem heads_respell {n m : Node} (respelling : n.respell commas = some m) :
    List.Forall₂ (fun a b => a.respell commas = some b) n.heads m.heads := by
  cases n with
  | rule selector children =>
      obtain ⟨text, inner, spelling, inside, rfl⟩ := respell_rule.mp respelling
      refine .cons ?_ (headsAll_respell inside)
      rw [Node.respell, spelling]
      rfl
  | atBlock name params children =>
      obtain ⟨text, inner, spelling, inside, rfl⟩ := respell_atBlock.mp respelling
      refine .cons ?_ (headsAll_respell inside)
      rw [Node.respell, spelling]
      rfl
  | atStatement name params =>
      obtain ⟨text, -, rfl⟩ := respell_atStatement.mp respelling
      exact .cons respelling .nil
  | declaration d =>
      obtain ⟨text, -, rfl⟩ := respell_declaration.mp respelling
      exact .cons respelling .nil
  | comment text =>
      cases respelling
      exact .cons rfl .nil

/-- Spelling the texts anew spells each item anew, in its place. -/
theorem headsAll_respell {nodes others : List Node}
    (respelling : respellAll commas nodes = some others) :
    List.Forall₂ (fun a b => a.respell commas = some b) (headsAll nodes) (headsAll others) := by
  cases nodes with
  | nil =>
      cases respelling
      exact .nil
  | cons n rest =>
      obtain ⟨m, more, first, later, rfl⟩ := respellAll_cons.mp respelling
      exact List.rel_append (heads_respell first) (headsAll_respell later)

end

/-- An item that is spelled anew keeps its name and its kind, and its text is spelled anew. -/
theorem respell_head {a b : Node} (respelling : a.respell commas = some b) :
    b.name? = a.name? ∧ b.isComment = a.isComment ∧
      ∀ w, b.spelled? = some w → ∃ v, respelled commas v = some w := by
  cases a with
  | rule selector children =>
      obtain ⟨text, inner, spelling, -, rfl⟩ := respell_rule.mp respelling
      exact ⟨rfl, rfl, by rintro w ⟨⟩; exact ⟨selector, spelling⟩⟩
  | atBlock name params children =>
      obtain ⟨text, inner, spelling, -, rfl⟩ := respell_atBlock.mp respelling
      exact ⟨rfl, rfl, by rintro w ⟨⟩; exact ⟨params, spelling⟩⟩
  | atStatement name params =>
      obtain ⟨text, spelling, rfl⟩ := respell_atStatement.mp respelling
      exact ⟨rfl, rfl, by rintro w ⟨⟩; exact ⟨params, spelling⟩⟩
  | declaration d =>
      obtain ⟨text, spelling, rfl⟩ := respell_declaration.mp respelling
      exact ⟨rfl, rfl, by rintro w ⟨⟩; exact ⟨d.value, spelling⟩⟩
  | comment text =>
      cases respelling
      exact ⟨rfl, rfl, nofun⟩

/-- What spelling anew keeps of each item, it keeps of all of them. -/
theorem map_heads_respell {β : Type} {f : Node → β}
    (keeps : ∀ a b, a.respell commas = some b → f b = f a) {nodes others : List Node}
    (respelling : respellAll commas nodes = some others) :
    (headsAll others).map f = (headsAll nodes).map f := by
  have pairs := headsAll_respell respelling
  generalize headsAll nodes = front, headsAll others = back at pairs
  induction pairs with
  | nil => rfl
  | cons first rest ih => rw [List.map_cons, List.map_cons, keeps _ _ first, ih]

theorem namesAll_respell {nodes others : List Node}
    (respelling : respellAll commas nodes = some others) : namesAll others = namesAll nodes := by
  have same := map_heads_respell (f := Node.name?) (fun _ _ head => (respell_head head).1)
    respelling
  have named (heads : List Node) :
      heads.filterMap Node.name? = (heads.map Node.name?).filterMap id := by
    rw [List.filterMap_map]
    rfl
  rw [namesAll, namesAll, named, named, same]

/-- Every text of items that were spelled anew is the normal spelling of some text. -/
theorem exists_respelled {nodes others : List Node}
    (respelling : respellAll commas nodes = some others) :
    ∀ w ∈ textsAll others, ∃ v, respelled commas v = some w := by
  have pairs := headsAll_respell respelling
  intro w member
  obtain ⟨b, found, spelled⟩ := List.mem_filterMap.mp member
  obtain ⟨i, bound, rfl⟩ := List.getElem_of_mem found
  have first : i < (headsAll nodes).length := pairs.length_eq ▸ bound
  exact (respell_head (pairs.get first bound)).2.2 w spelled

mutual

theorem outline_respell {f : Declaration → Declaration}
    (keeps : ∀ d value, f { d with value } = f d) {n m : Node}
    (respelling : n.respell commas = some m) : m.outline f = n.outline f := by
  cases n with
  | rule selector children =>
      obtain ⟨text, inner, -, inside, rfl⟩ := respell_rule.mp respelling
      exact congrArg (Node.rule []) (outlineAll_respell keeps inside)
  | atBlock name params children =>
      obtain ⟨text, inner, -, inside, rfl⟩ := respell_atBlock.mp respelling
      exact congrArg (Node.atBlock [] []) (outlineAll_respell keeps inside)
  | atStatement name params =>
      obtain ⟨text, -, rfl⟩ := respell_atStatement.mp respelling
      rfl
  | declaration d =>
      obtain ⟨text, -, rfl⟩ := respell_declaration.mp respelling
      exact congrArg Node.declaration (keeps d text)
  | comment text =>
      cases respelling
      rfl

/-- Spelling the texts anew keeps the outline, as far as it shows no values. -/
theorem outlineAll_respell {f : Declaration → Declaration}
    (keeps : ∀ d value, f { d with value } = f d) {nodes others : List Node}
    (respelling : respellAll commas nodes = some others) :
    outlineAll f others = outlineAll f nodes := by
  cases nodes with
  | nil =>
      cases respelling
      rfl
  | cons n rest =>
      obtain ⟨m, more, first, later, rfl⟩ := respellAll_cons.mp respelling
      rw [outlineAll, outlineAll, outline_respell keeps first, outlineAll_respell keeps later]

end

end Normal

end Swatch
