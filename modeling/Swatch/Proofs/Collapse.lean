/-
Module: Swatch.Proofs.Collapse
Purpose: The normal spelling of a value depends on its tokens and on where blanks stand between
  them, but not on how many blanks stand there.
Main exports:
  SheetError.unplaced, collapseLevel, trimBlank, Tree.collapse, collapsed,
  unplaced_writeValue_collapsed, normalizeValue_eq_of_collapsed
-/
import Mathlib
import Swatch.Proofs.Items
import Swatch.Proofs.Reread

namespace Swatch

/-!
### Collapsing blanks

White space and comments are blank.  At each level of the nesting, a run of blank trees becomes
one space.  With comma spacing, a run beside a comma and a run at either end of a block vanish as
well.  The brackets are those of blocks: a closing bracket that closes nothing is a token like any
other.
-/

/-- One level of the nesting with one space for each run of blank trees, or with none for a run
beside a comma if commas are spaced. -/
def collapseLevel (commas : Bool) : List Tree → List Tree
  | [] => []
  | t :: rest =>
    let rest := collapseLevel commas rest
    if t.isBlank then
      if commas && rest.head?.any Tree.isComma then rest else space :: Tree.dropBlank rest
    else if commas && t.isComma then t :: Tree.dropBlank rest
    else t :: rest

/-- The trees without blank ones at either end. -/
def trimBlank (ts : List Tree) : List Tree :=
  (Tree.dropBlank (Tree.dropBlank ts).reverse).reverse

/-- The contents of a block, collapsed at their own level. -/
def collapseBlock (commas : Bool) (ts : List Tree) : List Tree :=
  if commas then trimBlank (collapseLevel commas ts) else collapseLevel commas ts

mutual

/-- The tokens of a tree, collapsed inside its blocks. -/
def Tree.collapse (commas : Bool) : Tree → Tree
  | .leaf lexeme => .leaf lexeme.token.bare
  | .block bracket opener children _ _ =>
    .block bracket opener.token.bare (collapseBlock commas (collapseAll commas children)) {} true

/-- The tokens of neighbouring trees, collapsed inside their blocks. -/
def collapseAll (commas : Bool) : List Tree → List Tree
  | [] => []
  | t :: rest => t.collapse commas :: collapseAll commas rest

end

/-- The nested tokens of a text, collapsed at every level and without blanks at its ends. -/
def collapsed (commas : Bool) (s : Text) : List Tree :=
  trimBlank (collapseLevel commas (collapseAll commas (trees s)))

/-- An error without its place. -/
def SheetError.unplaced : SheetError → SheetError
  | .invalidRule _ item => .invalidRule {} item
  | .invalidDeclaration _ item => .invalidDeclaration {} item
  | .unterminatedString _ => .unterminatedString {}
  | .invalidUrl _ => .invalidUrl {}
  | .invalidSettings problem => .invalidSettings problem

/-!
### One level
-/

section Level

variable {commas nested : Bool}

/-- Where a space is due, or will be with the first blank, further blanks count for nothing. -/
theorem writeTrees_dropBlank {gap begun : Bool}
    (due : (gap || begun || (nested && !commas)) = gap) (ts : List Tree) :
    writeTrees commas nested gap begun (Tree.dropBlank ts) =
      writeTrees commas nested gap begun ts := by
  have blank : AllBlank (ts.takeWhile Tree.isBlank) := fun _ => List.mem_takeWhile_imp
  calc writeTrees commas nested gap begun (Tree.dropBlank ts)
      = writeTrees commas nested gap begun (ts.takeWhile Tree.isBlank ++ Tree.dropBlank ts) :=
        (writeTrees_blank_append blank due (Tree.dropBlank ts)).symm
    _ = writeTrees commas nested gap begun ts := by
        rw [Tree.dropBlank, List.takeWhile_append_dropWhile]

/-- Collapsing one level does not change what is written of it. -/
theorem writeTrees_collapseLevel (gap begun : Bool) (ts : List Tree) :
    writeTrees commas nested gap begun (collapseLevel commas ts) =
      writeTrees commas nested gap begun ts := by
  induction ts generalizing gap begun with
  | nil => rfl
  | cons t rest ih =>
      rw [collapseLevel]
      cases blank : t.isBlank with
      | true =>
          rw [if_pos rfl, writeTrees_blank blank, ← ih]
          split
          next beside =>
            obtain ⟨rfl, comma⟩ := (Bool.and_eq_true _ _).mp beside
            refine writeTrees_comma_gap (fun t member => ?_) _ _ _ _
            rw [member] at comma
            exact comma
          next =>
            have space : space.isBlank = true := rfl
            rw [writeTrees_blank space]
            apply writeTrees_dropBlank
            cases gap <;> cases begun <;> simp
      | false =>
          have dark : ¬t.isBlank = true := by simp [blank]
          rw [if_neg Bool.false_ne_true]
          split
          next comma =>
            rw [writeTrees, writeTrees, if_neg dark, if_neg dark, if_pos comma, if_pos comma,
              writeTrees_dropBlank rfl, ih]
          next other =>
            rw [writeTrees, writeTrees, if_neg dark, if_neg dark, if_neg other, if_neg other, ih]

theorem exists_trimBlank (ts : List Tree) :
    ∃ blanks, AllBlank blanks ∧ Tree.dropBlank ts = trimBlank ts ++ blanks := by
  refine ⟨((Tree.dropBlank ts).reverse.takeWhile Tree.isBlank).reverse, ?_, ?_⟩
  · intro t member
    exact List.mem_takeWhile_imp (List.mem_reverse.mp member)
  · have whole : (Tree.dropBlank ts).reverse.takeWhile Tree.isBlank ++
        Tree.dropBlank (Tree.dropBlank ts).reverse = (Tree.dropBlank ts).reverse :=
      List.takeWhile_append_dropWhile
    rw [trimBlank, ← List.reverse_append, whole, List.reverse_reverse]

/-- Blanks at the ends of trees are not written unless a block keeps the space at its ends. -/
theorem writeTrees_trimBlank (loose : (nested && !commas) = false) (ts : List Tree) :
    writeTrees commas nested false false (trimBlank ts) =
      writeTrees commas nested false false ts := by
  obtain ⟨blanks, blank, split⟩ := exists_trimBlank ts
  calc writeTrees commas nested false false (trimBlank ts)
      = writeTrees commas nested false false (Tree.dropBlank ts) := by
        rw [split, writeTrees_append_blank loose blank]
    _ = writeTrees commas nested false false ts := by
        apply writeTrees_dropBlank
        rw [loose]
        rfl

/-- Collapsing the contents of a block does not change what is written of them. -/
theorem writeTrees_collapseBlock (ts : List Tree) :
    writeTrees commas true false false (collapseBlock commas ts) =
      writeTrees commas true false false ts := by
  rw [collapseBlock]
  split
  next spaced =>
    have loose : (true && !commas) = false := by
      rw [spaced]
      rfl
    rw [writeTrees_trimBlank loose, writeTrees_collapseLevel]
  next => exact writeTrees_collapseLevel false false ts

end Level

/-!
### All levels
-/

theorem token_collapse (commas : Bool) (t : Tree) : (t.collapse commas).token = t.token := by
  cases t with
  | leaf lexeme => rfl
  | block bracket opener children stop closed => rfl

mutual

theorem unplaced_write_collapse (commas : Bool) (t : Tree) :
    ((t.collapse commas).write commas).mapError SheetError.unplaced =
      (t.write commas).mapError SheetError.unplaced := by
  cases t with
  | leaf lexeme =>
      simp only [Tree.collapse, Tree.write, Token.token_bare]
      split <;> rfl
  | block bracket opener children stop closed =>
      simp only [Tree.collapse, Tree.write, Token.token_bare, writeTrees_collapseBlock,
        mapError_bind, unplaced_writeTrees_collapseAll commas true false false children]

/-- Collapsing blocks does not change what is written, places of errors apart. -/
theorem unplaced_writeTrees_collapseAll (commas nested gap begun : Bool) (ts : List Tree) :
    (writeTrees commas nested gap begun (collapseAll commas ts)).mapError SheetError.unplaced =
      (writeTrees commas nested gap begun ts).mapError SheetError.unplaced := by
  cases ts with
  | nil => rfl
  | cons t rest =>
      have blank : (t.collapse commas).isBlank = t.isBlank := by
        rw [Tree.isBlank, Tree.isBlank, token_collapse]
      have comma : (t.collapse commas).isComma = t.isComma := by
        rw [Tree.isComma, Tree.isComma, token_collapse]
      rw [collapseAll, writeTrees, writeTrees, blank, comma]
      split
      next => exact unplaced_writeTrees_collapseAll commas nested _ begun rest
      split
      next =>
        simp only [mapError_bind, unplaced_writeTrees_collapseAll commas nested true true rest]
      next =>
        simp only [mapError_bind, unplaced_write_collapse commas t,
          unplaced_writeTrees_collapseAll commas nested false true rest]

end

/-- A value is written as its collapsed tokens are. -/
theorem unplaced_writeValue_collapsed (commas : Bool) (v : Text) :
    (writeValue commas (collapsed commas v)).mapError SheetError.unplaced =
      (normalizeValue commas v).mapError SheetError.unplaced := by
  rw [writeValue, collapsed, writeTrees_trimBlank rfl, writeTrees_collapseLevel,
    unplaced_writeTrees_collapseAll, normalizeValue, writeValue]

/-- Values whose nested tokens are equal once blanks are collapsed have the same normal spelling,
or fail with the same kind of error. -/
theorem normalizeValue_eq_of_collapsed {commas : Bool} {v w : Text}
    (same : collapsed commas v = collapsed commas w) :
    (normalizeValue commas v).mapError SheetError.unplaced =
      (normalizeValue commas w).mapError SheetError.unplaced := by
  rw [← unplaced_writeValue_collapsed, same, unplaced_writeValue_collapsed]

/-- A value with blanks beside commas, at the ends of blocks and at its own ends, and the same
value without them. -/
def looseCall : Text × Text :=
  (" f( a\t,/* x */b[ \n] ) /**/ ! ".toList, "f(a,b[]) !".toList)

/-- A value whose string is broken behind two comments, and behind one space. -/
def brokenCall : Text × Text := ("f(a /**//**/'x\n) ".toList, "f(a 'x\n)".toList)

/-- With comma spacing both calls have one spelling; without it, both fail on their string. -/
theorem normalizeValue_eq_of_collapsed_looseCall :
    collapsed true looseCall.1 = collapsed true looseCall.2 ∧
      normalizeValue true looseCall.1 = .ok "f(a, b[]) !".toList ∧
      (normalizeValue true looseCall.2).mapError SheetError.unplaced =
        .ok "f(a, b[]) !".toList ∧
      collapsed false brokenCall.1 = collapsed false brokenCall.2 ∧
      normalizeValue false brokenCall.1 = .error (.unterminatedString ⟨1, 13⟩) ∧
      (normalizeValue false brokenCall.2).mapError SheetError.unplaced =
        .error (.unterminatedString {}) := by
  have loose : collapsed true looseCall.1 = collapsed true looseCall.2 := by cbv
  have broken : collapsed false brokenCall.1 = collapsed false brokenCall.2 := by cbv
  have written : normalizeValue true looseCall.1 = .ok "f(a, b[]) !".toList := by cbv
  have fails : normalizeValue false brokenCall.1 = .error (.unterminatedString ⟨1, 13⟩) := by
    cbv
  refine ⟨loose, written, ?_, broken, fails, ?_⟩
  · rw [← normalizeValue_eq_of_collapsed loose, written]
    rfl
  · rw [← normalizeValue_eq_of_collapsed broken, fails]
    rfl

end Swatch
