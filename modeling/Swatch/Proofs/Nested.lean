/-
Module: Swatch.Proofs.Nested
Purpose: What counts of a text: its nested tokens as they are printed, without white space and
  comments.
Main exports:
  Nested, meaning, Role, Nested.marksAll, marksAll_injective
-/
import Swatch.Token.Print
import Swatch.Tree

namespace Swatch

/-!
### What counts of a text
-/

/-- A token as it is printed, or a block with what counts inside. -/
inductive Nested where
  | token (text : Text)
  | block (opener : Text) (bracket : Bracket) (inner : List Nested)

mutual

/-- What counts of a tree. -/
def Tree.nested : Tree → List Nested
  | .leaf lexeme => if lexeme.token.isBlank then [] else [.token lexeme.token.text]
  | .block bracket opener children _ _ =>
    [.block opener.token.text bracket (nestedAll children)]

/-- What counts of neighbouring trees. -/
def nestedAll : List Tree → List Nested
  | [] => []
  | t :: rest => t.nested ++ nestedAll rest

end

/-- What counts of a text.  Tokens that are printed the same count as equal. -/
def meaning (s : Text) : List Nested := nestedAll (trees s)

/-!
### Nesting as a run of tokens

A block that is spelled out with both of its ends is found again, so two texts mean the same if
their runs are equal.
-/

/-- The part of a token in the nesting of blocks. -/
inductive Role where
  | inside
  | opens
  | closes
deriving DecidableEq, Repr

mutual

/-- A token or a block as one run of tokens. -/
def Nested.marks : Nested → List (Role × Text)
  | .token text => [(.inside, text)]
  | .block opener bracket inner =>
    (.opens, opener) :: (Nested.marksAll inner ++ [(.closes, [bracket.closeChar])])

/-- Neighbours as one run of tokens. -/
def Nested.marksAll : List Nested → List (Role × Text)
  | [] => []
  | n :: rest => n.marks ++ Nested.marksAll rest

end

theorem marksAll_append (front back : List Nested) :
    Nested.marksAll (front ++ back) = Nested.marksAll front ++ Nested.marksAll back := by
  induction front with
  | nil => rfl
  | cons n rest ih =>
      rw [List.cons_append, Nested.marksAll, Nested.marksAll, ih, List.append_assoc]

theorem closeChar_injective {b d : Bracket} (same : b.closeChar = d.closeChar) : b = d := by
  cases b <;> cases d <;> first | rfl | cases same

/-- What stands behind the contents of a block: its end, or nothing. -/
def IsEnd (r : List (Role × Text)) : Prop := ∀ mark ∈ r.head?, mark.1 = .closes

theorem isEnd_closes (text : Text) (r : List (Role × Text)) : IsEnd ((.closes, text) :: r) := by
  rintro mark ⟨⟩
  rfl

theorem marksAll_token (text : Text) (rest : List Nested) (r : List (Role × Text)) :
    Nested.marksAll (.token text :: rest) ++ r = (.inside, text) :: (Nested.marksAll rest ++ r) :=
  rfl

theorem marksAll_block (opener : Text) (bracket : Bracket) (inner rest : List Nested)
    (r : List (Role × Text)) :
    Nested.marksAll (.block opener bracket inner :: rest) ++ r =
      (.opens, opener) :: (Nested.marksAll inner ++
        (.closes, [bracket.closeChar]) :: (Nested.marksAll rest ++ r)) := by
  simp [Nested.marksAll, Nested.marks]

/-- What stands before an end is told from what starts there. -/
theorem not_isEnd {n : Nested} {rest : List Nested} {r s : List (Role × Text)} (ends : IsEnd r)
    (same : r = Nested.marksAll (n :: rest) ++ s) : False := by
  subst same
  cases n with
  | token text => cases ends _ (by rw [marksAll_token]; rfl)
  | block opener bracket inner => cases ends _ (by rw [marksAll_block]; rfl)

/-- Neighbours are found again before an end.  The contents of a block go up to the mark of its
end, and its neighbours up to the end of the block around it. -/
theorem marksAll_cancel : ∀ (ns ms : List Nested) {r s : List (Role × Text)}, IsEnd r → IsEnd s →
    Nested.marksAll ns ++ r = Nested.marksAll ms ++ s → ns = ms ∧ r = s
  | [], [], _, _, _, _, same => ⟨rfl, same⟩
  | [], _ :: _, _, _, left, _, same => (not_isEnd left same).elim
  | _ :: _, [], _, _, _, right, same => (not_isEnd right same.symm).elim
  | .token text :: ns, .token other :: ms, r, s, left, right, same => by
      rw [marksAll_token, marksAll_token, List.cons.injEq, Prod.mk.injEq] at same
      obtain ⟨⟨-, rfl⟩, later⟩ := same
      obtain ⟨rfl, rest⟩ := marksAll_cancel ns ms left right later
      exact ⟨rfl, rest⟩
  | .token text :: ns, .block opener bracket inner :: ms, r, s, left, right, same => by
      rw [marksAll_token, marksAll_block] at same
      cases (List.cons.inj same).1
  | .block opener bracket inner :: ns, .token text :: ms, r, s, left, right, same => by
      rw [marksAll_token, marksAll_block] at same
      cases (List.cons.inj same).1
  | .block opener bracket inner :: ns, .block other last contents :: ms, r, s, left, right,
      same => by
      rw [marksAll_block, marksAll_block, List.cons.injEq, Prod.mk.injEq] at same
      obtain ⟨⟨-, rfl⟩, later⟩ := same
      obtain ⟨rfl, behind⟩ := marksAll_cancel inner contents (isEnd_closes _ _)
        (isEnd_closes _ _) later
      rw [List.cons.injEq, Prod.mk.injEq, List.singleton_inj] at behind
      obtain ⟨⟨-, closer⟩, behind⟩ := behind
      obtain rfl := closeChar_injective closer
      obtain ⟨rfl, rest⟩ := marksAll_cancel ns ms left right behind
      exact ⟨rfl, rest⟩

/-- Texts with the same run of tokens mean the same. -/
theorem marksAll_injective {ns ms : List Nested}
    (same : Nested.marksAll ns = Nested.marksAll ms) : ns = ms :=
  (marksAll_cancel ns ms (r := []) (s := []) nofun nofun (by rw [same])).1

end Swatch
