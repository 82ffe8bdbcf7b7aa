/-
Module: Swatch.Proofs.Stray
Purpose: A closing brace that closes nothing is read as a part of the item in which it stands, so
  it is an error only where that item cannot be completed.
Main exports:
  Tree.tame, accepted_tame, itemBegun, cut_append, not_accepted_of_openRule, parse_strayBrace
-/
import Swatch.Proofs.Acceptance

namespace Swatch

/-!
### Items of a sheet

Whether an item of a sheet is well formed depends on what it starts with, on the trees before its
block and on the contents of the block.
-/

/-- The trees of an item that are written: of an at-rule those behind its name. -/
def written (front : List Tree) : List Tree := if isAtRule front then front.tail else front

/-- The list that the block of an item of a sheet holds. -/
def innerList : List Tree → ItemList
  | [] => .declarations
  | t :: _ =>
    match t.token with
    | .atKeyword name => blockList name
    | _ => .declarations

theorem isAtRule_iff {front : List Tree} :
    isAtRule front = true ↔
      ∃ keyword name params, front = keyword :: params ∧ keyword.token = .atKeyword name := by
  constructor
  · intro rule
    cases front with
    | nil => cases rule
    | cons t rest =>
        rw [isAtRule, List.head?_cons, Option.any_some] at rule
        split at rule
        next name named => exact ⟨t, name, rest, rfl, named⟩
        next => cases rule
  · rintro ⟨keyword, name, params, rfl, named⟩
    exact isAtRule_of_token named params

theorem innerList_of_named {keyword : Tree} {name : Text}
    (named : keyword.token = .atKeyword name) (params : List Tree) :
    innerList (keyword :: params) = blockList name := by
  simp [innerList, named]

theorem innerList_of_plain {front : List Tree} (plain : isAtRule front = false) :
    innerList front = .declarations := by
  cases front with
  | nil => rfl
  | cons t rest =>
      rw [innerList]
      split
      next name named =>
        rw [isAtRule_of_token named] at plain
        cases plain
      next => rfl

/-- Without a block, an item of a sheet is an at-rule. -/
theorem wellFormed_statement_iff {front : List Tree} :
    WellFormed .sheet ⟨front, none⟩ ↔ isAtRule front = true ∧ Whole (written front) := by
  constructor
  · intro formed
    cases formed with
    | atStatement named whole =>
        have rule := isAtRule_of_token named
        refine ⟨rule _, ?_⟩
        rw [written, if_pos (rule _)]
        exact whole
  · rintro ⟨rule, whole⟩
    rw [written, if_pos rule] at whole
    obtain ⟨keyword, name, params, rfl, named⟩ := isAtRule_iff.mp rule
    exact .atStatement named whole

/-- With a block, an item of a sheet is an at-rule or a rule. -/
theorem wellFormed_block_iff {front children : List Tree} :
    WellFormed .sheet ⟨front, some children⟩ ↔
      Whole (written front) ∧ Accepted (innerList front) children := by
  constructor
  · intro formed
    cases formed with
    | atBlock named whole inside =>
        rw [written, if_pos (isAtRule_of_token named _), innerList_of_named named]
        exact ⟨whole, inside⟩
    | rule list plain whole inside =>
        have other : ¬isAtRule front = true := by simp [plain]
        rw [written, if_neg other, innerList_of_plain plain]
        exact ⟨whole, inside⟩
  · rintro ⟨whole, inside⟩
    cases rule : isAtRule front with
    | true =>
        rw [written, if_pos rule] at whole
        obtain ⟨keyword, name, params, rfl, named⟩ := isAtRule_iff.mp rule
        rw [innerList_of_named named] at inside
        exact .atBlock named whole inside
    | false =>
        have other : ¬isAtRule front = true := by simp [rule]
        rw [written, if_neg other] at whole
        rw [innerList_of_plain rule] at inside
        exact .rule nofun rule whole inside

/-!
### Commas for stray braces
-/

/-- The tree, with a comma for a closing brace that closes nothing. -/
def Tree.tame : Tree → Tree
  | .leaf lexeme =>
    .leaf (if lexeme.token = .closing .curly then Token.comma.bare else lexeme)
  | .block bracket opener children stop closed => .block bracket opener children stop closed

/-- Only closing braces are replaced. -/
theorem token_tame (t : Tree) :
    t.tame.token = t.token ∨ t.token = .closing .curly ∧ t.tame.token = .comma := by
  cases t with
  | leaf lexeme =>
      by_cases stray : lexeme.token = .closing .curly
      · right
        refine ⟨stray, ?_⟩
        rw [Tree.tame, if_pos stray]
        rfl
      · left
        rw [Tree.tame, if_neg stray]
  | block bracket opener children stop closed => exact .inl rfl

/-- What tells nothing of closing braces and nothing of commas tells the same of both trees. -/
theorem tame_congr {α : Type} {f : Token → α} (blind : f (.closing .curly) = f .comma) (t : Tree) :
    f t.tame.token = f t.token := by
  rcases token_tame t with same | ⟨stray, comma⟩
  · rw [same]
  · rw [stray, comma, blind]

theorem isAtRule_tame (front : List Tree) : isAtRule (front.map Tree.tame) = isAtRule front := by
  cases front with
  | nil => rfl
  | cons t rest =>
      exact tame_congr (f := fun token => match token with
        | .atKeyword _ => true
        | _ => false) rfl t

theorem isEncoding_tame (front : List Tree) (block other : Option (List Tree)) :
    Item.isEncoding ⟨front.map Tree.tame, block⟩ = Item.isEncoding ⟨front, other⟩ := by
  cases front with
  | nil => rfl
  | cons t rest =>
      exact tame_congr (f := fun token => match token with
        | .atKeyword name => lowercase name == "charset".toList
        | _ => false) rfl t

theorem innerList_tame (front : List Tree) : innerList (front.map Tree.tame) = innerList front := by
  cases front with
  | nil => rfl
  | cons t rest =>
      exact tame_congr (f := fun token => match token with
        | .atKeyword name => blockList name
        | _ => .declarations) rfl t

theorem written_tame (front : List Tree) :
    written (front.map Tree.tame) = (written front).map Tree.tame := by
  rw [written, written, isAtRule_tame]
  split
  next => exact List.map_tail.symm
  next => rfl

/-- Neither a closing brace nor a comma is broken. -/
theorem whole_tame (ts : List Tree) : Whole (ts.map Tree.tame) ↔ Whole ts := by
  induction ts with
  | nil => exact Iff.rfl
  | cons t ts ih =>
      have first : (∀ p ∈ t.tame.pieces, p.token.isBroken = false) ↔
          ∀ p ∈ t.pieces, p.token.isBroken = false := by
        cases t with
        | leaf lexeme =>
            have same : (Tree.leaf lexeme).tame.token.isBroken = lexeme.token.isBroken :=
              tame_congr (f := Token.isBroken) rfl (.leaf lexeme)
            rw [Tree.tame, Tree.pieces, Tree.pieces, List.forall_mem_singleton,
              List.forall_mem_singleton]
            exact same ▸ Iff.rfl
        | block bracket opener children stop closed => exact Iff.rfl
      rw [Whole, Whole, List.map_cons, piecesAll, piecesAll, List.forall_mem_append,
        List.forall_mem_append, first]
      exact and_congr_right fun _ => ih

/-- The item, with commas for closing braces that close nothing. -/
def Item.tame (item : Item) : Item := ⟨item.front.map Tree.tame, item.block⟩

theorem wellFormed_tame (item : Item) : WellFormed .sheet item.tame ↔ WellFormed .sheet item := by
  obtain ⟨front, block⟩ := item
  cases block with
  | none =>
      rw [Item.tame, wellFormed_statement_iff, wellFormed_statement_iff, isAtRule_tame,
        written_tame, whole_tame]
  | some children =>
      rw [Item.tame, wellFormed_block_iff, wellFormed_block_iff, innerList_tame, written_tame,
        whole_tame]

/-- A closing brace belongs to the same item as a comma in its place. -/
theorem cut_tame (front ts : List Tree) :
    cut .sheet (front.map Tree.tame) (ts.map Tree.tame) =
      (cut .sheet front ts).map Item.tame := by
  induction ts generalizing front with
  | nil =>
      rw [List.map_nil, cut, cut, List.isEmpty_map]
      split
      next => rfl
      next => rfl
  | cons t ts ih =>
      have begun : front.map Tree.tame ++ [t.tame] = (front ++ [t]).map Tree.tame := by simp
      have rule := isAtRule_tame front
      have fresh : cut .sheet [] (ts.map Tree.tame) = (cut .sheet [] ts).map Item.tame := ih []
      cases t with
      | leaf lexeme =>
          have separates := tame_congr (f := separatesItems .sheet) rfl (.leaf lexeme)
          have semicolon := tame_congr (f := (· == .semicolon)) rfl (.leaf lexeme)
          rw [Tree.tame] at begun separates semicolon
          rw [List.map_cons, Tree.tame, cut, cut, List.isEmpty_map, endsAtSemicolon, rule, begun,
            ih, fresh]
          simp only [Tree.token, Tree.first] at separates semicolon
          rw [separates, semicolon, ← endsAtSemicolon]
          split
          next => rfl
          next =>
            split
            next => rfl
            next => rfl
      | block bracket opener children stop closed =>
          rw [Tree.tame] at begun
          rw [List.map_cons, Tree.tame, cut, cut, endsWithBlock, rule, begun, ih, fresh,
            ← endsWithBlock]
          split
          next => rfl
          next => rfl

theorem items_tame (ts : List Tree) :
    items .sheet (ts.map Tree.tame) = (items .sheet ts).map Item.tame := by
  have whole := cut_tame [] ts
  rw [List.map_nil] at whole
  rw [items, items, itemsFrom, itemsFrom, whole]
  cases cut .sheet [] ts with
  | nil => rfl
  | cons first rest =>
      have encoding : first.tame.isEncoding = first.isEncoding :=
        isEncoding_tame first.front first.block first.block
      rw [List.map_cons]
      dsimp only
      rw [encoding]
      split
      next => rfl
      next => rfl

/-- A sheet is accepted exactly if it is with a comma for each closing brace that closes
nothing. -/
theorem accepted_tame (ts : List Tree) :
    Accepted .sheet (ts.map Tree.tame) ↔ Accepted .sheet ts := by
  rw [Accepted, Accepted, items_tame, List.forall_mem_map]
  simp only [wellFormed_tame]

/-!
### Rules without a block
-/

/-- The trees of the item that is begun behind some trees of a list. -/
def itemBegun (kind : ItemList) : (front : List Tree) → List Tree → List Tree
  | front, [] => front
  | front, .leaf lexeme :: rest =>
    if front.isEmpty && separatesItems kind lexeme.token then itemBegun kind [] rest
    else if lexeme.token == .semicolon && endsAtSemicolon kind front then itemBegun kind [] rest
    else itemBegun kind (front ++ [.leaf lexeme]) rest
  | front, .block bracket opener children stop closed :: rest =>
    if bracket == .curly && endsWithBlock kind front then itemBegun kind [] rest
    else itemBegun kind (front ++ [.block bracket opener children stop closed]) rest

/-- The items of trees in two parts: those that the first part completes, and those of the second
part behind the item that is begun. -/
theorem cut_append (kind : ItemList) (front ts : List Tree) :
    ∃ done, ∀ us, cut kind front (ts ++ us) = done ++ cut kind (itemBegun kind front ts) us := by
  fun_induction itemBegun kind front ts with
  | case1 front => exact ⟨[], fun us => rfl⟩
  | case2 front lexeme rest blank ih =>
      obtain ⟨done, same⟩ := ih
      refine ⟨done, fun us => ?_⟩
      rw [List.cons_append, cut, if_pos blank, same]
  | case3 front lexeme rest dark ends ih =>
      obtain ⟨done, same⟩ := ih
      refine ⟨⟨front, none⟩ :: done, fun us => ?_⟩
      rw [List.cons_append, cut, if_neg dark, if_pos ends, same, List.cons_append]
  | case4 front lexeme rest dark goes ih =>
      obtain ⟨done, same⟩ := ih
      refine ⟨done, fun us => ?_⟩
      rw [List.cons_append, cut, if_neg dark, if_neg goes, same]
  | case5 front bracket opener children stop closed rest ends ih =>
      obtain ⟨done, same⟩ := ih
      refine ⟨⟨front, some children⟩ :: done, fun us => ?_⟩
      rw [List.cons_append, cut, if_pos ends, same, List.cons_append]
  | case6 front bracket opener children stop closed rest goes ih =>
      obtain ⟨done, same⟩ := ih
      refine ⟨done, fun us => ?_⟩
      rw [List.cons_append, cut, if_neg goes, same]

theorem isAtRule_concat {front : List Tree} (begun : front ≠ []) (t : Tree) :
    isAtRule (front ++ [t]) = isAtRule front := by
  cases front with
  | nil => exact absurd rfl begun
  | cons first rest => rfl

/-- A rule of a sheet that has begun goes on up to its block; without one it is left open. -/
theorem openRule_mem_cut {front ts : List Tree} (begun : front ≠ [])
    (plain : isAtRule front = false) (noBraces : ∀ t ∈ ts, t.isBraces = false) :
    ∃ selector, isAtRule selector = false ∧ ⟨selector, none⟩ ∈ cut .sheet front ts := by
  have filled : front.isEmpty = false := by simpa using begun
  induction ts generalizing front with
  | nil =>
      refine ⟨front, plain, ?_⟩
      rw [cut, filled, if_neg Bool.false_ne_true]
      exact List.mem_singleton.mpr rfl
  | cons t ts ih =>
      obtain ⟨first, others⟩ := List.forall_mem_cons.mp noBraces
      have goes : cut .sheet front (t :: ts) = cut .sheet (front ++ [t]) ts := by
        cases t with
        | leaf lexeme => simp [cut, filled, endsAtSemicolon, plain]
        | block bracket opener children stop closed =>
            cases bracket with
            | curly => cases first
            | round => rw [cut, if_neg (by simp)]
            | square => rw [cut, if_neg (by simp)]
      rw [goes]
      apply ih (by simp) _ others (by simp)
      rw [isAtRule_concat begun, plain]

/-- What is cut off is an item of the list, unless it says how the sheet is encoded. -/
theorem mem_items_of_mem_cut {kind : ItemList} {ts : List Tree} {item : Item}
    (member : item ∈ cut kind [] ts) (counts : item.isEncoding = false) :
    item ∈ items kind ts := by
  rw [items, itemsFrom]
  cases all : cut kind [] ts with
  | nil =>
      rw [all] at member
      cases member
  | cons first rest =>
      rw [all] at member
      dsimp only
      split
      next encoding =>
        rw [Bool.and_eq_true] at encoding
        rcases List.mem_cons.mp member with rfl | later
        · rw [encoding.2] at counts
          cases counts
        · exact later
      next => exact member

/-- A sheet with a rule that is left open is not accepted. -/
theorem not_accepted_of_openRule {ts selector : List Tree} (plain : isAtRule selector = false)
    (open_ : ⟨selector, none⟩ ∈ cut .sheet [] ts) : ¬Accepted .sheet ts := by
  intro accepted
  have formed := accepted _ (mem_items_of_mem_cut open_ (isEncoding_of_plain plain))
  rw [wellFormed_statement_iff, plain] at formed
  exact absurd formed.1 Bool.false_ne_true

/-!
### Stray braces
-/

/-- A sheet is read if its trees are accepted. -/
theorem exists_parse_iff {commas : Bool} {source : Text} :
    (∃ nodes, parse commas source = .ok nodes) ↔ Accepted .sheet (trees (dropMark source)) := by
  rw [← exists_itemsRead_iff commas (holdsAll_trees fun _ _ => trivial)]
  constructor
  · rintro ⟨nodes, read⟩
    exact ⟨_, parse_iff_itemsRead.mp (by rw [read]; rfl)⟩
  · rintro ⟨_, read⟩
    obtain ⟨nodes, found, rfl⟩ := Option.map_eq_some_iff.mp (parse_iff_itemsRead.mpr read)
    exact ⟨nodes, toOption_eq_some.mp found⟩

/-- A rule with a stray brace in it and no block behind that is left open. -/
theorem openRule_of_strayBrace {before after : List Tree} {lexeme : Lexeme}
    (stray : lexeme.token = .closing .curly)
    (plain : isAtRule (itemBegun .sheet [] before) = false)
    (noBraces : ∀ t ∈ after, t.isBraces = false) :
    ∃ selector, isAtRule selector = false ∧
      ⟨selector, none⟩ ∈ cut .sheet [] (before ++ .leaf lexeme :: after) := by
  obtain ⟨done, cuts⟩ := cut_append .sheet [] before
  generalize itemBegun .sheet [] before = front at plain cuts
  have goes : cut .sheet front (.leaf lexeme :: after) =
      cut .sheet (front ++ [.leaf lexeme]) after := by
    simp [cut, stray, separatesItems]
  have rule : isAtRule (front ++ [.leaf lexeme]) = false := by
    by_cases begun : front = []
    · subst begun
      apply isAtRule_of_ne
      intro name named
      cases stray.symm.trans named
    · rw [isAtRule_concat begun, plain]
  obtain ⟨selector, other, member⟩ := openRule_mem_cut (by simp) rule noBraces
  refine ⟨selector, other, ?_⟩
  rw [cuts, goes]
  exact List.mem_append_right done member

/-- A tree that starts with a closing brace is only that brace. -/
theorem leaf_of_strayBrace {source : Text} {n : Nat}
    (stray : (trees source)[n]?.map Tree.token = some (.closing .curly)) :
    ∃ lexeme, lexeme.token = .closing .curly ∧ (trees source)[n]? = some (.leaf lexeme) := by
  obtain ⟨t, place, closes⟩ := Option.map_eq_some_iff.mp stray
  have holds : t.Holds fun _ => True :=
    holdsAll_iff.mp (holdsAll_trees fun _ _ => trivial) t (List.mem_of_getElem? place)
  cases t with
  | leaf lexeme => exact ⟨lexeme, closes, place⟩
  | block bracket opener children stop closed =>
      have opens := holds.1.1
      have token : opener.token = .closing .curly := closes
      rw [token] at opens
      cases opens

/-- A closing brace that closes nothing is read as a part of the item in which it stands: the sheet
is read exactly if it would be with a comma in its place.  So the brace is no error by itself; but
no rule ends without a block, and where the brace stands in a rule and no block follows, there is
an error. -/
theorem parse_strayBrace (commas : Bool) {source : Text} {n : Nat}
    (stray : (trees (dropMark source))[n]?.map Tree.token = some (.closing .curly)) :
    ((∃ nodes, parse commas source = .ok nodes) ↔
        Accepted .sheet ((trees (dropMark source)).set n (.leaf Token.comma.bare))) ∧
      (isAtRule (itemBegun .sheet [] ((trees (dropMark source)).take n)) = false →
        (∀ t ∈ (trees (dropMark source)).drop (n + 1), t.isBraces = false) →
          ∃ e, parse commas source = .error e) := by
  obtain ⟨lexeme, closes, place⟩ := leaf_of_strayBrace stray
  obtain ⟨inside, there⟩ := List.getElem?_eq_some_iff.mp place
  constructor
  · have comma : Tree.tame (.leaf lexeme) = Tree.tame (.leaf Token.comma.bare) := by
      rw [Tree.tame, if_pos closes]
      rfl
    have bound : n < ((trees (dropMark source)).map Tree.tame).length := by
      rw [List.length_map]
      exact inside
    have self : ((trees (dropMark source)).map Tree.tame)[n] = Tree.tame (.leaf lexeme) := by
      rw [List.getElem_map, there]
    rw [exists_parse_iff, ← accepted_tame, ← accepted_tame (List.set _ _ _), List.map_set, ← comma,
      ← self, List.set_getElem_self]
  · intro plain noBraces
    cases outcome : parse commas source with
    | error e => exact ⟨e, rfl⟩
    | ok nodes =>
        have accepted := exists_parse_iff.mp ⟨nodes, outcome⟩
        obtain ⟨selector, other, open_⟩ := openRule_of_strayBrace closes plain noBraces
        rw [← there, ← List.drop_eq_getElem_cons inside, List.take_append_drop] at open_
        exact absurd accepted (not_accepted_of_openRule other open_)

/-- A stray brace between two rules, which the second one takes into its selector. -/
def braceInSelector : Text := "a\x7b\x7d\x7db\x7b\x7d".toList

/-- A stray brace among the parameters of an at-rule. -/
def braceInParams : Text := "@a \x7d;".toList

/-- Not every stray brace is an error. -/
theorem parse_unnoticedBraces :
    ((trees (dropMark braceInSelector))[2]?.map Tree.token = some (.closing .curly) ∧
        parse true braceInSelector = .ok [.rule ['a'] [], .rule "\x7db".toList []]) ∧
      (trees (dropMark braceInParams))[2]?.map Tree.token = some (.closing .curly) ∧
        parse true braceInParams = .ok [.atStatement ['a'] ['\x7d']] := by
  have selector : (trees (dropMark braceInSelector))[2]?.map Tree.token =
      some (.closing .curly) := by
    decide +kernel
  have params : (trees (dropMark braceInParams))[2]?.map Tree.token =
      some (.closing .curly) := by
    decide +kernel
  refine ⟨⟨selector, ?_⟩, params, ?_⟩
  · exact toOption_eq_some.mp (by decide +kernel)
  · exact toOption_eq_some.mp (by decide +kernel)

/-- A sheet with a stray brace between two rules, of which the second has no block. -/
def noticedBrace : Text := "a\x7b\x7d\x7d b;c".toList

theorem parse_strayBrace_noticedBrace : ∃ e, parse true noticedBrace = .error e := by
  have stray : (trees (dropMark noticedBrace))[2]?.map Tree.token = some (.closing .curly) := by
    decide +kernel
  obtain ⟨-, fails⟩ := parse_strayBrace true stray
  apply fails
  · decide +kernel
  · decide +kernel

end Swatch
