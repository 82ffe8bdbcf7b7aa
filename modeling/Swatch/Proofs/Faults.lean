/-
Module: Swatch.Proofs.Faults
Purpose: Errors that blame a token stand at a token of the source that is malformed.
Main exports:
  Tree.lexemes, Blames, blames_readItems, BreaksOff, Spoils, parse_error_at_token
-/
import Swatch.Proofs.Locations
import Swatch.Proofs.Reading
import Swatch.Proofs.Rescan

namespace Swatch

/-!
### The lexemes of trees
-/

mutual

/-- The lexemes of a tree in their order, without the brackets that close. -/
def Tree.lexemes : Tree → List Lexeme
  | .leaf lexeme => [lexeme]
  | .block _ opener children _ _ => opener :: lexemesAll children

/-- The lexemes of neighbouring trees. -/
def lexemesAll : List Tree → List Lexeme
  | [] => []
  | t :: rest => t.lexemes ++ lexemesAll rest

end

theorem lexemesAll_eq (ts : List Tree) : lexemesAll ts = ts.flatMap Tree.lexemes := by
  induction ts with
  | nil => rfl
  | cons t rest ih => rw [lexemesAll, ih, List.flatMap_cons]

theorem lexemesAll_subset {ts us : List Tree} (subset : ts ⊆ us) :
    lexemesAll ts ⊆ lexemesAll us := by
  rw [lexemesAll_eq, lexemesAll_eq]
  intro l member
  obtain ⟨t, inside, found⟩ := List.mem_flatMap.mp member
  exact List.mem_flatMap.mpr ⟨t, subset inside, found⟩

theorem lexemesAll_reverse {ts : List Tree} {ls : List Lexeme} (inside : lexemesAll ts ⊆ ls) :
    lexemesAll ts.reverse ⊆ ls :=
  List.Subset.trans (lexemesAll_subset fun _ => List.mem_reverse.mp) inside

/-- What was read into a nesting are certain lexemes. -/
structure Nesting.Within (ls : List Lexeme) (n : Nesting) : Prop where
  blocks : ∀ b ∈ n.blocks, b.opener ∈ ls ∧ lexemesAll b.before ⊆ ls
  done : lexemesAll n.done ⊆ ls

theorem lexemesAll_cons {ls : List Lexeme} {t : Tree} {rest : List Tree} (first : t.lexemes ⊆ ls)
    (others : lexemesAll rest ⊆ ls) : lexemesAll (t :: rest) ⊆ ls :=
  List.append_subset.mpr ⟨first, others⟩

theorem Nesting.Within.push {ls : List Lexeme} {n : Nesting} (within : n.Within ls)
    {lexeme : Lexeme} (member : lexeme ∈ ls) : (n.push lexeme).Within ls := by
  obtain ⟨blocks, done⟩ := n
  obtain ⟨opened, read⟩ := within
  have leaf : lexemesAll (.leaf lexeme :: done) ⊆ ls :=
    lexemesAll_cons (List.cons_subset.mpr ⟨member, List.nil_subset _⟩) read
  rw [Nesting.push]
  cases lexeme.token.opens? with
  | some bracket =>
      exact ⟨List.forall_mem_cons.mpr ⟨⟨member, read⟩, opened⟩, List.nil_subset _⟩
  | none =>
      cases blocks with
      | nil => exact ⟨opened, leaf⟩
      | cons inner outer =>
          obtain ⟨⟨opener, before⟩, others⟩ := List.forall_mem_cons.mp opened
          dsimp only
          split
          next =>
            have block := List.cons_subset.mpr ⟨opener, lexemesAll_reverse read⟩
            exact ⟨others, lexemesAll_cons block before⟩
          next => exact ⟨opened, leaf⟩

theorem lexemesAll_finish (stop : Position) {ls : List Lexeme} {blocks : List OpenBlock}
    {done : List Tree} (opened : ∀ b ∈ blocks, b.opener ∈ ls ∧ lexemesAll b.before ⊆ ls)
    (read : lexemesAll done ⊆ ls) : lexemesAll (Nesting.finish stop blocks done) ⊆ ls := by
  induction blocks generalizing done with
  | nil => exact lexemesAll_reverse read
  | cons inner outer ih =>
      obtain ⟨⟨opener, before⟩, others⟩ := List.forall_mem_cons.mp opened
      have block := List.cons_subset.mpr ⟨opener, lexemesAll_reverse read⟩
      exact ih others (lexemesAll_cons block before)

/-- The lexemes of the trees of a source are lexemes of the source. -/
theorem lexemesAll_trees (source : Text) : lexemesAll (trees source) ⊆ lexemes source := by
  have nested (ls : List Lexeme) (n : Nesting) (within : n.Within (lexemes source))
      (members : ls ⊆ lexemes source) : (ls.foldl Nesting.push n).Within (lexemes source) := by
    induction ls generalizing n with
    | nil => exact within
    | cons l ls ih =>
        obtain ⟨first, others⟩ := List.cons_subset.mp members
        exact ih (n.push l) (within.push first) others
  have whole := nested (lexemes source) {} ⟨nofun, List.nil_subset _⟩ (List.Subset.refl _)
  exact lexemesAll_finish _ whole.blocks whole.done

/-!
### Errors that blame a token
-/

/-- An error that blames a token stands at the place of such a token among the lexemes: a broken
string or a malformed address. -/
def Blames (ls : List Lexeme) : SheetError → Prop
  | .unterminatedString place => ∃ l ∈ ls, l.start = place ∧ ∃ value, l.token = .badString value
  | .invalidUrl place => ∃ l ∈ ls, l.start = place ∧ ∃ contents, l.token = .badUrl contents
  | _ => True

section Blame

variable {commas : Bool} {ls : List Lexeme} {e : SheetError}

mutual

theorem blames_write {t : Tree} (inside : t.lexemes ⊆ ls) (failed : t.write commas = .error e) :
    Blames ls e := by
  cases t with
  | leaf lexeme =>
      have member : lexeme ∈ ls := inside List.mem_cons_self
      rw [Tree.write] at failed
      split at failed
      next value same =>
        cases failed
        exact ⟨lexeme, member, rfl, value, same⟩
      next contents same =>
        cases failed
        exact ⟨lexeme, member, rfl, contents, same⟩
      next => cases failed
  | block bracket opener children stop closed =>
      rw [Tree.write, bind_eq_error] at failed
      rcases failed with failed | ⟨inner, -, failed⟩
      · exact blames_writeTrees (List.subset_of_cons_subset inside) failed
      · cases failed

/-- Trees whose spelling fails hold the token that is blamed for it. -/
theorem blames_writeTrees {nested gap begun : Bool} {ts : List Tree} (inside : lexemesAll ts ⊆ ls)
    (failed : writeTrees commas nested gap begun ts = .error e) : Blames ls e := by
  cases ts with
  | nil => cases failed
  | cons t rest =>
      obtain ⟨first, others⟩ := List.append_subset.mp inside
      rw [writeTrees] at failed
      split at failed
      next => exact blames_writeTrees others failed
      next =>
        split at failed
        next =>
          rcases bind_eq_error.mp failed with failed | ⟨after, -, failed⟩
          · exact blames_writeTrees others failed
          · cases failed
        next =>
          rcases bind_eq_error.mp failed with failed | ⟨head, -, failed⟩
          · exact blames_write first failed
          · rcases bind_eq_error.mp failed with failed | ⟨after, -, failed⟩
            · exact blames_writeTrees others failed
            · cases failed

end

theorem blames_writeValue {ts : List Tree} (inside : lexemesAll ts ⊆ ls)
    (failed : writeValue commas ts = .error e) : Blames ls e :=
  blames_writeTrees inside failed

/-!
### Reading items
-/

/-- The lexemes of the item that is being read, without the start of a declaration. -/
def Reading.lexemes : Reading → List Lexeme
  | .between _ _ => []
  | .encoding => []
  | .atRule _ params => lexemesAll params
  | .rule selector => lexemesAll selector
  | .declaration _ _ body => lexemesAll body
  | .stray _ _ => []

variable {kind : ItemList} {stop : Position}

theorem blames_readDeclaration {item property : Text} {body : List Tree}
    (inside : lexemesAll body ⊆ ls)
    (failed : readDeclaration commas stop item property body = .error e) : Blames ls e := by
  rw [readDeclaration] at failed
  split at failed
  next =>
    cases failed
    trivial
  next colon after same =>
    split at failed
    next =>
      rcases bind_eq_error.mp failed with failed | ⟨value, -, failed⟩
      · refine blames_writeValue (List.Subset.trans (lexemesAll_subset fun t member => ?_) inside)
          failed
        have behind : t ∈ Tree.dropBlank body := by
          rw [same]
          exact List.mem_cons_of_mem colon ((List.takeWhile_sublist _).subset member)
        exact (List.dropWhile_sublist _).subset behind
      · split at failed
        next => cases failed
        next =>
          cases failed
          trivial
    next =>
      cases failed
      trivial

theorem blames_endItem {ending : Text} {state : Reading} (inside : state.lexemes ⊆ ls)
    (failed : endItem commas stop ending state = .error e) : Blames ls e := by
  cases state with
  | between keeps fresh => cases failed
  | encoding => cases failed
  | atRule name params =>
      rcases bind_eq_error.mp failed with failed | ⟨text, -, failed⟩
      · exact blames_writeValue (lexemesAll_reverse inside) failed
      · cases failed
  | rule selector =>
      cases failed
      trivial
  | declaration property name body =>
      rcases bind_eq_error.mp failed with failed | ⟨d, -, failed⟩
      · exact blames_readDeclaration (lexemesAll_reverse inside) failed
      · cases failed
  | stray first rest =>
      cases failed
      trivial

theorem Reading.lexemes_begin {t : Tree} (tree : t.lexemes ⊆ ls) (fresh : Bool) :
    (Reading.begin kind fresh t).lexemes ⊆ ls := by
  have rule : (Reading.rule [t]).lexemes ⊆ ls := lexemesAll_cons tree (List.nil_subset _)
  rw [Reading.begin]
  split
  next => split <;> exact List.nil_subset _
  next =>
    split
    next => exact List.nil_subset _
    next => exact rule
  next =>
    split
    next => exact List.nil_subset _
    next => exact rule

theorem Reading.lexemes_push {state : Reading} (inside : state.lexemes ⊆ ls) {t : Tree}
    (tree : t.lexemes ⊆ ls) : (state.push kind t).lexemes ⊆ ls := by
  cases state with
  | between keeps fresh => exact Reading.lexemes_begin tree fresh
  | encoding => exact List.nil_subset _
  | atRule name params => exact lexemesAll_cons tree inside
  | rule selector => exact lexemesAll_cons tree inside
  | declaration property name body => exact lexemesAll_cons tree inside
  | stray first rest => exact List.nil_subset _

theorem blames_readLeaf {state : Reading} {lexeme : Lexeme} (inside : state.lexemes ⊆ ls)
    (failed : readLeaf commas kind state lexeme = .error e) : Blames ls e := by
  rw [readLeaf.eq_def] at failed
  split at failed
  next => cases failed
  next => cases failed
  next => split at failed <;> cases failed
  next => cases failed
  next => cases failed
  next =>
    rcases bind_eq_error.mp failed with failed | ⟨nodes, -, failed⟩
    · exact blames_endItem inside failed
    · cases failed
  next => cases failed

theorem lexemes_readLeaf {state after : Reading} {lexeme : Lexeme} {done : List Node}
    (inside : state.lexemes ⊆ ls) (member : lexeme ∈ ls)
    (read : readLeaf commas kind state lexeme = .ok (after, done)) : after.lexemes ⊆ ls := by
  have leaf : (Tree.leaf lexeme).lexemes ⊆ ls :=
    List.cons_subset.mpr ⟨member, List.nil_subset _⟩
  rw [readLeaf.eq_def] at read
  split at read
  next =>
    cases read
    exact List.nil_subset _
  next =>
    cases read
    exact List.nil_subset _
  next =>
    split at read
    next =>
      cases read
      exact List.nil_subset _
    next =>
      cases read
      exact Reading.lexemes_push inside leaf
  next =>
    cases read
    exact List.nil_subset _
  next =>
    cases read
    exact lexemesAll_cons leaf inside
  next =>
    obtain ⟨nodes, -, same⟩ := bind_eq_ok.mp read
    cases same
    exact List.nil_subset _
  next =>
    cases read
    exact Reading.lexemes_push inside leaf

/-- The lexemes of what stands before a block. -/
def BlockRole.lexemes : BlockRole → List Lexeme
  | .rule selector => lexemesAll selector
  | .atRule _ params => lexemesAll params
  | .skipped => []
  | .part => []

theorem lexemes_blockRole {state : Reading} (inside : state.lexemes ⊆ ls) (bracket : Bracket) :
    (blockRole kind state bracket).lexemes ⊆ ls := by
  cases bracket with
  | round => exact List.nil_subset _
  | square => exact List.nil_subset _
  | curly =>
      cases state with
      | between keeps fresh =>
          rw [blockRole]
          split <;> exact List.nil_subset _
      | encoding => exact List.nil_subset _
      | atRule name params => exact lexemesAll_reverse inside
      | rule selector => exact lexemesAll_reverse inside
      | declaration property name body => exact List.nil_subset _
      | stray first rest => exact List.nil_subset _

/-- After a tree the item that is being read holds no other lexemes than before and those of the
tree. -/
theorem lexemes_readTree {state after : Reading} {t : Tree} {done : List Node}
    (inside : state.lexemes ⊆ ls) (tree : t.lexemes ⊆ ls)
    (read : readTree commas kind state t = .ok (after, done)) : after.lexemes ⊆ ls := by
  cases t with
  | leaf lexeme => exact lexemes_readLeaf inside (tree List.mem_cons_self) read
  | block bracket opener children last closed =>
      rcases readTree_block_cases read with ⟨_, _, _, -, -, -, rfl, -⟩ |
        ⟨_, _, _, _, -, -, -, rfl, -⟩ | ⟨-, rfl, -⟩ | ⟨-, rfl, -⟩
      · exact List.nil_subset _
      · exact List.nil_subset _
      · exact List.nil_subset _
      · exact Reading.lexemes_push inside tree

mutual

theorem blames_readTree {kind : ItemList} {state : Reading} {t : Tree}
    (inside : state.lexemes ⊆ ls) (tree : t.lexemes ⊆ ls)
    (failed : readTree commas kind state t = .error e) : Blames ls e := by
  cases t with
  | leaf lexeme => exact blames_readLeaf inside failed
  | block bracket opener children last closed =>
      have role : (blockRole kind state bracket).lexemes ⊆ ls := lexemes_blockRole inside bracket
      have within : lexemesAll children ⊆ ls := (List.cons_subset.mp tree).2
      rw [readTree] at failed
      split at failed
      next selector same =>
        rw [same] at role
        rcases bind_eq_error.mp failed with failed | ⟨text, -, failed⟩
        · exact blames_writeValue role failed
        rcases bind_eq_error.mp failed with failed | ⟨nodes, -, failed⟩
        · exact blames_readItems (List.nil_subset _) within failed
        · cases failed
      next name params same =>
        rw [same] at role
        rcases bind_eq_error.mp failed with failed | ⟨text, -, failed⟩
        · exact blames_writeValue role failed
        rcases bind_eq_error.mp failed with failed | ⟨nodes, -, failed⟩
        · exact blames_readItems (List.nil_subset _) within failed
        · cases failed
      next => cases failed
      next => cases failed

/-- Items whose reading fails hold the token that is blamed for it. -/
theorem blames_readItems {kind : ItemList} {stop : Position} {state : Reading} {ts : List Tree}
    (inside : state.lexemes ⊆ ls) (within : lexemesAll ts ⊆ ls)
    (failed : readItems commas kind stop state ts = .error e) : Blames ls e := by
  cases ts with
  | nil => exact blames_endItem inside failed
  | cons t rest =>
      obtain ⟨tree, others⟩ := List.append_subset.mp within
      rw [readItems] at failed
      rcases bind_eq_error.mp failed with failed | ⟨⟨after, done⟩, step, failed⟩
      · exact blames_readTree inside tree failed
      rcases bind_eq_error.mp failed with failed | ⟨nodes, -, failed⟩
      · exact blames_readItems (lexemes_readTree inside tree step) others failed
      · cases failed

end

/-- A sheet that is not read because of a token has such a token at the place of the error. -/
theorem blames_parse {source : Text} (failed : parse commas source = .error e) :
    Blames (lexemes (dropMark source)) e :=
  blames_readItems (List.nil_subset _) (lexemesAll_trees (dropMark source)) failed

end Blame

/-!
### Malformed tokens
-/

/-- The contents of a string, behind its opening mark, meet the end of a line before the mark comes
again.  A backslash hides the end of a line behind it, and all that belongs to an escape. -/
inductive BreaksOff (mark : Char) : Text → Prop where
  | newline {c : Char} {s : Text} (ends : isNewline c = true) : BreaksOff mark (c :: s)
  | char {c : Char} {s : Text} (other : c ≠ mark) (inside : isNewline c = false)
      (plain : c ≠ '\\') (rest : BreaksOff mark s) : BreaksOff mark (c :: s)
  | hidden {s : Text} (newline : startsNewline s = true)
      (rest : BreaksOff mark (s.drop (newlineLength s))) : BreaksOff mark ('\\' :: s)
  | escape {s : Text} (inside : startsNewline s = false)
      (rest : BreaksOff mark (s.drop (readEscape s).2)) : BreaksOff mark ('\\' :: s)

/-- A string is broken exactly if its contents meet the end of a line. -/
theorem readString_broken_iff {mark : Char} (quote : mark = '"' ∨ mark = '\'') (s : Text) :
    (readString mark s).1.2 = true ↔ BreaksOff mark s := by
  constructor
  · intro broken
    fun_induction readString mark s with
    | case1 => cases broken
    | case2 => cases broken
    | case3 c s _ ends => exact .newline ends
    | case4 => cases broken
    | case5 s _ newline hidden value taken read _ _ ih =>
        rw [read] at ih
        exact .hidden newline (ih broken)
    | case6 s _ inside d escape hidden value flag taken read _ _ ih =>
        rw [read] at ih
        refine .escape (Bool.not_eq_true _ ▸ inside) ?_
        rw [hidden]
        exact ih broken
    | case7 c s other inside plain value flag taken read ih =>
        rw [read] at ih
        exact .char other (Bool.not_eq_true _ ▸ inside) plain (ih broken)
  · have escape : '\\' ≠ mark := by
      rintro rfl
      exact absurd quote (by decide)
    have visible : isNewline '\\' = false := rfl
    intro breaks
    induction breaks with
    | @newline c s ends =>
        have other : c ≠ mark := by
          rintro rfl
          rcases quote with rfl | rfl <;> cases ends
        rw [readString, if_neg other, if_pos ends]
    | @char c s other inside plain rest ih =>
        rw [readString, if_neg other, inside, if_neg Bool.false_ne_true, if_neg plain]
        exact ih
    | @hidden s newline rest ih =>
        have more : s.isEmpty = false := by
          cases s with
          | nil => cases newline
          | cons d s => rfl
        rw [readString, if_neg escape, visible, if_neg Bool.false_ne_true, if_pos rfl, more,
          if_neg Bool.false_ne_true, if_pos newline]
        exact ih
    | @escape s inside rest ih =>
        have more : s.isEmpty = false := by
          cases s with
          | nil => cases rest
          | cons d s => rfl
        rw [readString, if_neg escape, visible, if_neg Bool.false_ne_true, if_pos rfl, more,
          if_neg Bool.false_ne_true, inside, if_neg Bool.false_ne_true]
        exact ih

/-- The contents of an unquoted address, behind white space, meet what they cannot hold before the
closing bracket comes: a character that breaks an address, the end of a line behind a backslash, or
white space that the bracket does not follow. -/
inductive Spoils : Text → Prop where
  | breaker {c : Char} {s : Text} (breaks : isUrlBreaker c = true) : Spoils (c :: s)
  | newline {s : Text} (ends : startsNewline s = true) : Spoils ('\\' :: s)
  | space {c d : Char} {s more : Text} (space : isSpace c = true)
      (behind : s.dropWhile isSpace = d :: more) (other : d ≠ ')') : Spoils (c :: s)
  | char {c : Char} {s : Text} (other : c ≠ ')') (dark : isSpace c = false)
      (holds : isUrlBreaker c = false) (plain : c ≠ '\\') (rest : Spoils s) : Spoils (c :: s)
  | escape {s : Text} (inside : startsNewline s = false)
      (rest : Spoils (s.drop (readEscape s).2)) : Spoils ('\\' :: s)

/-- An address is malformed exactly if its contents meet what they cannot hold. -/
theorem readUrlBody_malformed_iff (s : Text) : (readUrlBody s).1 = none ↔ Spoils s := by
  constructor
  · intro malformed
    fun_induction readUrlBody s with
    | case1 => cases malformed
    | case2 => cases malformed
    | case3 => cases malformed
    | case4 => cases malformed
    | case5 c s _ space spaces d rest behind other => exact .space space behind other
    | case6 c s _ _ breaks => exact .breaker breaks
    | case7 s ends => exact .newline ends
    | case8 s inside d escape hidden value taken read _ _ _ ih =>
        rw [read] at ih
        have rest := ih (Option.map_eq_none_iff.mp malformed)
        refine .escape (Bool.not_eq_true _ ▸ inside) ?_
        rwa [hidden]
    | case9 c s other dark holds plain value taken read ih =>
        rw [read] at ih
        have rest := ih (Option.map_eq_none_iff.mp malformed)
        exact .char other (Bool.not_eq_true _ ▸ dark) (Bool.not_eq_true _ ▸ holds) plain rest
  · intro spoils
    induction spoils with
    | @breaker c s breaks =>
        have other : c ≠ ')' := by
          rintro rfl
          cases breaks
        have dark : isSpace c = false := by
          rw [Bool.eq_false_iff, ne_eq, isSpace_iff]
          simp [isUrlBreaker, ← Char.toNat_inj] at breaks
          omega
        rw [readUrlBody, if_neg other, dark, if_neg Bool.false_ne_true, if_pos breaks]
    | @newline s ends =>
        rw [readUrlBody, if_neg (by decide), if_neg (by decide), if_neg (by decide), if_pos rfl,
          if_pos ends]
    | @space c d s more space behind other =>
        have bracket : c ≠ ')' := by
          rintro rfl
          cases space
        rw [readUrlBody, if_neg bracket, if_pos space, behind]
        exact congrArg Prod.fst (if_neg other)
    | @char c s other dark holds plain rest ih =>
        rw [readUrlBody, if_neg other, dark, if_neg Bool.false_ne_true, holds,
          if_neg Bool.false_ne_true, if_neg plain]
        exact Option.map_eq_none_iff.mpr ih
    | @escape s inside rest ih =>
        rw [readUrlBody, if_neg (by decide), if_neg (by decide), if_neg (by decide), if_pos rfl,
          inside, if_neg Bool.false_ne_true]
        exact Option.map_eq_none_iff.mpr ih

/-- A text that starts with a malformed address: a name that reads as `url`, a bracket, and contents
that are not quoted and meet what an address cannot hold. -/
def SpoiltAddress (s : Text) : Prop :=
  lowercase (readName s).1 = "url".toList ∧
    ∃ body, s.drop (readName s).2 = '(' :: body ∧
      (body.dropWhile isSpace).head? ≠ some '"' ∧ (body.dropWhile isSpace).head? ≠ some '\'' ∧
      Spoils (body.dropWhile isSpace)

theorem isBroken_readNumeric (s : Text) : (readNumeric s).1.isBroken = false := by
  rw [readNumeric]
  dsimp only
  split
  next => rfl
  next => split <;> rfl

theorem isBroken_readPunctuation (c : Char) (s : Text) :
    (readPunctuation c s).1.isBroken = false := by
  rw [readPunctuation.eq_def]
  split
  any_goals rfl
  split <;> rfl

/-- A word that is malformed is an address. -/
theorem spoiltAddress_of_readWord {s contents : Text}
    (malformed : (readWord s).1 = .badUrl contents) : SpoiltAddress s := by
  by_cases bracket : (s.drop (readName s).2).head? = some '('
  · obtain ⟨body, left⟩ := List.head?_eq_some_iff.mp bracket
    rw [readWord_bracket left] at malformed
    by_cases named : lowercase (readName s).1 = "url".toList
    · rw [if_pos named, readUrl] at malformed
      refine ⟨named, body, left, ?_⟩
      by_cases quoted : (body.dropWhile isSpace).head? = some '"' ∨
          (body.dropWhile isSpace).head? = some '\''
      · rw [if_pos quoted] at malformed
        cases malformed
      · rw [if_neg quoted] at malformed
        rw [not_or] at quoted
        refine ⟨quoted.1, quoted.2, (readUrlBody_malformed_iff _).mp ?_⟩
        cases read : readUrlBody (body.dropWhile isSpace) with
        | mk found taken =>
            cases found with
            | none => rfl
            | some value =>
                rw [read] at malformed
                cases malformed
    · rw [if_neg named] at malformed
      cases malformed
  · rw [readWord_plain bracket] at malformed
    cases malformed

/-- What is wrong with the text of a token, its first character and what follows that: a broken
string starts with a quote and meets the end of a line, and a malformed address is one.  Nothing is
wrong with other tokens. -/
def Token.Fault (c : Char) (s : Text) : Token → Prop
  | .badString _ => (c = '"' ∨ c = '\'') ∧ BreaksOff c s
  | .badUrl _ => isNewline c = false ∧ SpoiltAddress (c :: s)
  | _ => True

theorem Token.fault_of_not_broken {t : Token} (whole : t.isBroken = false) (c : Char) (s : Text) :
    t.Fault c s := by
  cases t with
  | badString => cases whole
  | badUrl => cases whole
  | _ => trivial

/-- A token that is read as a broken or malformed one is so. -/
theorem fault_scan (c : Char) (s : Text) : (scan c s).1.Fault c s := by
  have kind := scanned_scan c s
  generalize (scan c s).1 = t at kind ⊢
  generalize (scan c s).2 = taken at kind
  cases kind with
  | badString quote read =>
      refine ⟨quote, (readString_broken_iff quote s).mp ?_⟩
      rw [read]
  | number starts => exact Token.fault_of_not_broken (isBroken_readNumeric _) c s
  | word number starts =>
      rcases readWord_cases (c :: s) with
        ⟨value, read, -⟩ | ⟨contents, read⟩ | ⟨read, -⟩ | ⟨read, -⟩
      · rw [read]
        trivial
      · have start := isWordStart_of_startsName (startsName_of_startsWord starts)
        have inside : isNewline c = false := by
          rcases isWordStart_iff.mp start with start | rfl | rfl
          · exact (Bool.or_eq_false_iff.mp (isSpace_of_isNameStart start)).2
          · rfl
          · rfl
        rw [read]
        exact ⟨inside, spoiltAddress_of_readWord read⟩
      · rw [read]
        trivial
      · rw [read]
        trivial
  | mark => exact Token.fault_of_not_broken (isBroken_readPunctuation c s) c s
  | _ => trivial

/-!
### The result
-/

/-- A sheet that is not read because of a token has that token at the place of the error.  The line
of the place is a line of the sheet and the token starts in it behind the code units that the column
counts.  A broken string starts there with a quote and meets the end of a line before the quote
comes again; a malformed address starts there with its name. -/
theorem parse_error_at_token {commas : Bool} {source : Text} {e : SheetError}
    (failed : parse commas source = .error e) :
    (∀ place, e = .unterminatedString place → ∃ value front c rest,
      TokenAt (dropMark source) place (.badString value) front c rest ∧
        (c = '"' ∨ c = '\'') ∧ BreaksOff c rest) ∧
      ∀ place, e = .invalidUrl place → ∃ contents front c rest,
        TokenAt (dropMark source) place (.badUrl contents) front c rest ∧
          SpoiltAddress (c :: rest) := by
  have blamed := blames_parse failed
  constructor
  · rintro place rfl
    obtain ⟨l, member, rfl, value, broken⟩ := blamed
    obtain ⟨front, c, rest, starts⟩ := exists_startsAt member
    have fault := fault_scan c rest
    rw [← starts.token, broken] at fault
    obtain ⟨quote, breaks⟩ := fault
    have inside : isNewline c = false := by
      rcases quote with rfl | rfl <;> rfl
    have stands := starts.tokenAt inside
    rw [broken] at stands
    exact ⟨value, front, c, rest, stands, quote, breaks⟩
  · rintro place rfl
    obtain ⟨l, member, rfl, contents, malformed⟩ := blamed
    obtain ⟨front, c, rest, starts⟩ := exists_startsAt member
    have fault := fault_scan c rest
    rw [← starts.token, malformed] at fault
    obtain ⟨inside, spoilt⟩ := fault
    have stands := starts.tokenAt inside
    rw [malformed] at stands
    exact ⟨contents, front, c, rest, stands, spoilt⟩

/-- A sheet whose second line has a string that breaks off, behind a string with a character of two
code units. -/
def brokenString : Text := "/* 1\r\n2 */a\x7bb:\"𝒳\" \"c\n\x7d".toList

/-- A sheet whose third line has a malformed address, in a block behind a string over two lines. -/
def malformedAddress : Text := "@media a\x7b\nb\x7bc:\"\\\nd\" f(url(e f))\x7d\x7d".toList

/-- Both errors stand where the tokens start. -/
theorem parse_error_at_token_malformedTokens :
    (parse true brokenString = .error (.unterminatedString ⟨2, 14⟩) ∧
      ∃ value front c rest,
        TokenAt (dropMark brokenString) ⟨2, 14⟩ (.badString value) front c rest ∧
          (c = '"' ∨ c = '\'') ∧ BreaksOff c rest) ∧
      parse true malformedAddress = .error (.invalidUrl ⟨3, 6⟩) ∧
        ∃ contents front c rest,
          TokenAt (dropMark malformedAddress) ⟨3, 6⟩ (.badUrl contents) front c rest ∧
            SpoiltAddress (c :: rest) := by
  have broken : parse true brokenString = .error (.unterminatedString ⟨2, 14⟩) :=
    error?_eq_some.mp (by decide +kernel)
  have malformed : parse true malformedAddress = .error (.invalidUrl ⟨3, 6⟩) :=
    error?_eq_some.mp (by decide +kernel)
  exact ⟨⟨broken, (parse_error_at_token broken).1 _ rfl⟩, malformed,
    (parse_error_at_token malformed).2 _ rfl⟩

end Swatch
