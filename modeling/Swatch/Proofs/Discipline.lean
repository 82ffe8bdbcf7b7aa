/-
Module: Swatch.Proofs.Discipline
Purpose: What stands where in a style sheet that is read, down to its innermost blocks.
Main exports:
  Token.Confined, confined_scan, Disciplined, disciplined_of_drawn, parse_disciplined
-/
import Swatch.Proofs.Kinds
import Swatch.Proofs.Origin
import Swatch.Proofs.Visits

namespace Swatch

/-!
### Comments
-/

/-- The text of a comment does not close it. -/
def Token.Confined : Token → Prop
  | .comment text => closesComment text = false
  | _ => True

theorem confined_readNumeric (s : Text) : (readNumeric s).1.Confined := by
  rw [readNumeric]
  dsimp only
  split
  next => trivial
  next => split <;> trivial

theorem confined_readWord (s : Text) : (readWord s).1.Confined := by
  rcases readWord_cases s with ⟨value, read, -⟩ | ⟨contents, read⟩ | ⟨read, -⟩ | ⟨read, -⟩
  all_goals
    rw [read]
    trivial

theorem confined_readPunctuation (c : Char) (s : Text) : (readPunctuation c s).1.Confined := by
  rw [readPunctuation.eq_def]
  split
  any_goals trivial
  next => exact closesComment_readComment _
  next => split <;> trivial

/-- Every token that is read is confined. -/
theorem confined_scan (c : Char) (s : Text) : (scan c s).1.Confined := by
  have kind := scanned_scan c s
  generalize (scan c s).1 = t at kind ⊢
  generalize (scan c s).2 = taken at kind
  cases kind with
  | number starts => exact confined_readNumeric (c :: s)
  | word number starts => exact confined_readWord (c :: s)
  | mark => exact confined_readPunctuation c s
  | _ => trivial

/-!
### What may stand where
-/

/-- Whether the item is a rule. -/
def Node.isRule : Node → Bool
  | .rule _ _ => true
  | _ => false

/-- Whether the item is a declaration. -/
def Node.isDeclaration : Node → Bool
  | .declaration _ => true
  | _ => false

/-- A sheet whose items all stand where they may: no rule among declarations, no declaration among
rules, and no comment that would end before its text does. -/
structure Disciplined (nodes : List Node) : Prop where
  /-- The sheet itself holds no declaration. -/
  sheet : ∀ n ∈ nodes, n.isDeclaration = false
  /-- No at-rule that holds rules holds a declaration. -/
  ruleHolders : ∀ place name params children,
    itemAt nodes place = some (.atBlock name params children) → holdsRules name = true →
      ∀ n ∈ children, n.isDeclaration = false
  /-- No other at-rule holds a rule. -/
  otherBlocks : ∀ place name params children,
    itemAt nodes place = some (.atBlock name params children) → holdsRules name = false →
      ∀ n ∈ children, n.isRule = false
  /-- No rule holds a rule. -/
  rules : ∀ place selector children, itemAt nodes place = some (.rule selector children) →
    ∀ n ∈ children, n.isRule = false
  /-- The text of a comment has no blanks around it and does not close the comment. -/
  comments : ∀ place text, itemAt nodes place = some (.comment text) →
    trim text = text ∧ ¬"*/".toList <:+: text

section Drawn

variable {commas : Bool} {P : Token → Prop} {kind : ItemList}

theorem DrawnAll.mem {nodes : List Node} (drawn : DrawnAll commas P kind nodes) :
    ∀ n ∈ nodes, n.Drawn commas P kind := by
  induction nodes with
  | nil => exact List.forall_mem_nil _
  | cons n rest ih => exact List.forall_mem_cons.mpr ⟨drawn.1, ih drawn.2⟩

/-- What is inside an item is drawn as the list that the item holds. -/
theorem Node.Drawn.children {n : Node} (drawn : n.Drawn commas P kind) :
    ∃ list, DrawnAll commas P list n.children := by
  cases n with
  | rule selector children => exact ⟨.declarations, drawn.2.2⟩
  | atBlock name params children => exact ⟨blockList name, drawn.2.2⟩
  | _ => exact ⟨.sheet, trivial⟩

theorem Node.Drawn.at? {n m : Node} {place : List Nat} (drawn : n.Drawn commas P kind)
    (found : n.at? place = some m) : ∃ list, m.Drawn commas P list := by
  induction place generalizing n kind with
  | nil =>
      cases found
      exact ⟨kind, drawn⟩
  | cons i place ih =>
      rw [Node.at?, Option.bind_eq_some_iff] at found
      obtain ⟨item, inside, found⟩ := found
      obtain ⟨list, all⟩ := drawn.children
      exact ih (all.mem item (List.mem_of_getElem? inside)) found

/-- Every item of a sheet is drawn, however deep it stands. -/
theorem DrawnAll.itemAt {nodes : List Node} (drawn : DrawnAll commas P kind nodes)
    {place : List Nat} {n : Node} (found : itemAt nodes place = some n) :
    ∃ list, n.Drawn commas P list := by
  cases place with
  | nil => cases found
  | cons i place =>
      rw [Swatch.itemAt, Option.bind_eq_some_iff] at found
      obtain ⟨item, inside, found⟩ := found
      exact (drawn.mem item (List.mem_of_getElem? inside)).at? found

/-- Among rules there is no declaration. -/
theorem DrawnAll.isDeclaration {nodes : List Node} (drawn : DrawnAll commas P kind nodes)
    (list : kind ≠ .declarations) : ∀ n ∈ nodes, n.isDeclaration = false := by
  intro n member
  have item := drawn.mem n member
  cases n with
  | declaration d => exact absurd item.1 list
  | _ => rfl

/-- Among declarations there is no rule. -/
theorem DrawnAll.isRule {nodes : List Node} (drawn : DrawnAll commas P .declarations nodes) :
    ∀ n ∈ nodes, n.isRule = false := by
  intro n member
  have item := drawn.mem n member
  cases n with
  | rule selector children => exact absurd rfl item.1
  | _ => rfl

theorem disciplined_of_drawn {nodes : List Node}
    (drawn : DrawnAll commas Token.Confined .sheet nodes) : Disciplined nodes where
  sheet := drawn.isDeclaration (by decide)
  ruleHolders place name params children found holds := by
    obtain ⟨list, -, -, inside⟩ := drawn.itemAt found
    rw [blockList, if_pos holds] at inside
    exact inside.isDeclaration (by decide)
  otherBlocks place name params children found holds := by
    obtain ⟨list, -, -, inside⟩ := drawn.itemAt found
    rw [blockList, holds, if_neg Bool.false_ne_true] at inside
    exact inside.isRule
  rules place selector children found := by
    obtain ⟨list, -, -, inside⟩ := drawn.itemAt found
    exact inside.isRule
  comments place text found := by
    obtain ⟨list, whole, confined, rfl⟩ := drawn.itemAt found
    exact ⟨trim_trim whole, fun closes =>
      closesComment_iff.mp confined (closes.trans (trim_isInfix whole))⟩

end Drawn

/-!
### The result
-/

/-- Every sheet that is read has all its items where they may stand, at every depth.  The walks
meet each of its declarations once, in the order in which they are printed. -/
theorem parse_disciplined {commas : Bool} {source : Text} {nodes : List Node}
    (read : parse commas source = .ok nodes) : Disciplined nodes ∧ VisitedInOrder nodes :=
  ⟨disciplined_of_drawn (drawnAll_of_parse confined_scan read), visitedInOrder nodes⟩

/-- A sheet whose lists hold each other in turn, with a comment that the end of the text closes. -/
def nestedLists : Text :=
  "@media x\x7ba\x7bb:c\x7d/* 1 */@page\x7bd:e\x7d\x7d".toList ++
    "f\x7b@-Moz-Keyframes g\x7bh\x7bi:j\x7d\x7dk:l;/* 2 *".toList

/-- At-rules lead from declarations to rules and back. -/
theorem parse_disciplined_nestedLists :
    ∃ nodes, parse true nestedLists = .ok nodes ∧
      (Node.declarationsAll nodes).map Declaration.property = [['b'], ['d'], ['i'], ['k']] ∧
      itemAt nodes [1, 2] = some (.comment "2 *".toList) ∧
      Disciplined nodes ∧ VisitedInOrder nodes := by
  have read : (parse true nestedLists).toOption = some
      [.atBlock "media".toList ['x']
          [.rule ['a'] [.declaration ⟨['b'], ['c'], false⟩], .comment ['1'],
            .atBlock "page".toList [] [.declaration ⟨['d'], ['e'], false⟩]],
        .rule ['f']
          [.atBlock "-Moz-Keyframes".toList ['g']
              [.rule ['h'] [.declaration ⟨['i'], ['j'], false⟩]],
            .declaration ⟨['k'], ['l'], false⟩, .comment "2 *".toList]] := by
    decide +kernel
  obtain ⟨disciplined, visited⟩ := parse_disciplined (toOption_eq_some.mp read)
  exact ⟨_, toOption_eq_some.mp read, by decide, by decide, disciplined, visited⟩

end Swatch
