/-
Module: Swatch.Proofs.Closing
Purpose: The end of a sheet closes its open blocks: with the braces that are missing it is read in
  the same way.
Main exports:
  openBrackets, foldl_push_shape, shape_append_braces, parse_closes_blocks
-/
import Swatch.Proofs.Endings
import Swatch.Proofs.Reread

namespace Swatch

/-- The brackets that are open at the end of a text, innermost first. -/
def openBrackets (s : Text) : List Bracket :=
  ((lexemes s).foldl Nesting.push {}).blocks.map OpenBlock.bracket

/-- Braces behind a complete text are tokens of their own. -/
theorem tokens_append_braces {s : Text} (complete : Sealed s) (k : Nat) :
    tokens (s ++ List.replicate k '\x7d') =
      tokens s ++ List.replicate k (.closing .curly) := by
  have braces (k : Nat) : tokens (List.replicate k '\x7d') =
      List.replicate k (.closing .curly) := by
    induction k with
    | zero => exact tokens_nil
    | succ k ih => rw [List.replicate_succ, tokens_closeCurly, ih, List.replicate_succ]
  cases k with
  | zero => simp
  | succ k =>
      rw [← braces, List.replicate_succ]
      exact tokens_append_sealed (by decide) rfl complete _

/-- Closing brackets for all open blocks form the trees that the end of the text forms. -/
theorem foldl_push_closings (stop : Position) (blocks : List OpenBlock) (done : List Tree) :
    (((blocks.map OpenBlock.bracket).map Token.closing).map Token.bare).foldl Nesting.push
        (Nesting.bare ⟨blocks, done⟩) =
      ⟨[], (Tree.bareAll (Nesting.finish stop blocks done)).reverse⟩ := by
  induction blocks generalizing done with
  | nil => simp [Nesting.bare, Nesting.finish, Tree.bareAll_eq_map]
  | cons inner outer ih =>
      have pushed : (Nesting.bare ⟨inner :: outer, done⟩).push (Token.closing inner.bracket).bare =
          Nesting.bare ⟨outer,
            .block inner.bracket inner.opener done.reverse stop false :: inner.before⟩ := by
        simp [Nesting.bare, Nesting.push, Nesting.close, Token.opens?, OpenBlock.bare,
          Tree.bareAll, Tree.bare, Tree.bareAll_eq_map, Token.bare]
      rw [List.map_cons, List.map_cons, List.map_cons, List.foldl_cons, pushed, Nesting.finish]
      exact ih _

/-- The tokens of a text, closed where the text leaves something open, form its trees. -/
theorem foldl_push_shape (s : Text) :
    ((tokens s ++ (openBrackets s).map Token.closing).map Token.bare).foldl Nesting.push {} =
      ⟨[], (shape s).reverse⟩ := by
  have bare : ((tokens s).map Token.bare).foldl Nesting.push {} =
      ((lexemes s).foldl Nesting.push {}).bare := (Nesting.bare_foldl {} (lexemes s)).symm
  rw [List.map_append, List.foldl_append, bare, openBrackets, shape, trees, nest]
  exact foldl_push_closings _ _ _

/-- The braces that a text lacks do not change what it forms. -/
theorem shape_append_braces {s : Text} {k : Nat} (complete : Sealed s)
    (opened : openBrackets s = List.replicate k .curly) :
    shape (s ++ List.replicate k '\x7d') = shape s := by
  apply shape_of_foldl
  have formed := foldl_push_shape s
  rw [opened, List.map_replicate, ← tokens_append_braces complete] at formed
  exact formed

/-- A byte order mark is dropped from the start of a text, whatever follows the text. -/
theorem dropMark_append {s : Text} (nonempty : s ≠ []) (t : Text) :
    dropMark (s ++ t) = dropMark s ++ t := by
  cases s with
  | nil => exact absurd rfl nonempty
  | cons c s =>
      by_cases mark : c = '\uFEFF'
      · subst mark
        rfl
      · simp [dropMark, mark]

/-- The end of a sheet closes all blocks in braces that are open there.  If nothing else is open,
as many closing braces behind the sheet as there are open blocks change nothing, whatever the
sheet stops in: a rule, an at-rule, a declaration or a block inside a value. -/
theorem parse_closes_blocks {commas : Bool} {s : Text} {nodes : List Node} {k : Nat}
    (read : parse commas s = .ok nodes) (complete : Sealed (dropMark s))
    (opened : openBrackets (dropMark s) = List.replicate k .curly) :
    parse commas (s ++ List.replicate k '\x7d') = .ok nodes := by
  cases s with
  | nil =>
      have empty : openBrackets (dropMark []) = [] := by
        have dropped : dropMark [] = [] := rfl
        rw [dropped, openBrackets, lexemes, lexemesFrom]
        rfl
      have none : k = 0 := by
        have length := congrArg List.length opened
        rw [List.length_replicate, empty] at length
        exact length.symm
      subst none
      exact read
  | cons c s =>
      have same : (parse commas (c :: s)).toOption =
          (parse commas (c :: s ++ List.replicate k '\x7d')).toOption := by
        rw [toOption_parse, toOption_parse, dropMark_append (List.cons_ne_nil c s),
          shape_append_braces complete opened]
      exact eq_ok_of_toOption same read

/-- A sheet that ends inside a block in a value, three blocks deep. -/
def cutShort : Text := "@media print\x7ba\x7bb:c\x7bd".toList

/-- What is read of it. -/
def cutShortSheet : List Node :=
  [.atBlock "media".toList "print".toList
    [.rule ['a'] [.declaration { property := ['b'], value := "c\x7bd\x7d".toList }]]]

/-- The sheet with its missing braces is read in the same way. -/
theorem parse_closes_blocks_cutShort :
    parse false cutShort = .ok cutShortSheet ∧
      parse false (cutShort ++ List.replicate 3 '\x7d') = .ok cutShortSheet := by
  have read : parse false cutShort = .ok cutShortSheet := toOption_eq_some.mp (by decide +kernel)
  have complete : Sealed (dropMark cutShort) := by decide +kernel
  have opened : openBrackets (dropMark cutShort) = List.replicate 3 .curly := by decide +kernel
  exact ⟨read, parse_closes_blocks read complete opened⟩

end Swatch
