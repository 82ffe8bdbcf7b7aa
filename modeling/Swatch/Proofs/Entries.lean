/-
Module: Swatch.Proofs.Entries
Purpose: The comments that stand between items, each in its place among the items of its list, and
  which of them become items of the sheet that is read.
Main exports:
  ListEntry, entries, keptFrom, lostFrom, EntriesRead, parse_keeps_comments
-/
import Swatch.Proofs.Stray

namespace Swatch

/-!
### Entries

The source tells what stands in a list one after the other, down to the lists in its blocks.
White space is no entry, and neither is a comment inside an item.
-/

/-- What stands in a list: a comment between items, a mark between items that belongs to none,
or an item with its trees before its end and the entries of the block that ends it. -/
inductive ListEntry where
  | comment (text : Text)
  | skipped
  | statement (front : List Tree)
  | block (front : List Tree) (inner : List ListEntry)

/-- Whether a tree between items belongs to no item. -/
def Tree.separates (kind : ItemList) : Tree → Bool
  | .leaf lexeme => separatesItems kind lexeme.token
  | .block _ _ _ _ _ => false

/-- Whether a tree is a semicolon. -/
def Tree.isSemicolon : Tree → Bool
  | .leaf lexeme => lexeme.token == .semicolon
  | .block _ _ _ _ _ => false

/-- The entry of a token between items that belongs to none of them. -/
def separator : Token → List ListEntry
  | .whitespace => []
  | .comment text => [.comment text]
  | _ => [.skipped]

/-- The entry of an item.  The first item of a sheet is skipped if it says how the sheet is
encoded. -/
def ended (fresh : Bool) (front : List Tree) (entry : ListEntry) : ListEntry :=
  if fresh && Item.isEncoding ⟨front, none⟩ then .skipped else entry

mutual

/-- The entries of the list in a block. -/
def Tree.entries (kind : ItemList) : Tree → List ListEntry
  | .leaf _ => []
  | .block _ _ children _ _ => entriesFrom kind false [] children

/-- The entries of a list behind the first trees of an item.  A `fresh` list is that of a sheet of
which no item has ended before. -/
def entriesFrom (kind : ItemList) (fresh : Bool) (front : List Tree) : List Tree → List ListEntry
  | [] => if front.isEmpty then [] else [ended fresh front (.statement front)]
  | t :: rest =>
    if front.isEmpty && t.separates kind then
      separator t.token ++ entriesFrom kind fresh [] rest
    else if t.isSemicolon && endsAtSemicolon kind front then
      ended fresh front (.statement front) :: entriesFrom kind false [] rest
    else if t.isBraces && endsWithBlock kind front then
      ended fresh front (.block front (t.entries (innerList front))) ::
        entriesFrom kind false [] rest
    else entriesFrom kind fresh (front ++ [t]) rest

end

/-- The entries of a list. -/
def entries (kind : ItemList) (ts : List Tree) : List ListEntry :=
  entriesFrom kind (kind == .sheet) [] ts

/-!
### Comments that are kept

A comment is lost if something was skipped before it and no item stands in between.
-/

mutual

/-- The entry without what is skipped inside it, and unless `all` without the comments that are
lost inside it. -/
def ListEntry.kept (all : Bool) : ListEntry → ListEntry
  | .comment text => .comment text
  | .skipped => .skipped
  | .statement front => .statement front
  | .block front inner => .block front (keptFrom all true inner)

/-- The items and comments of a list, down to those inside its blocks.  Unless `all`, a comment
counts only while the list `keeps` comments. -/
def keptFrom (all keeps : Bool) : List ListEntry → List ListEntry
  | [] => []
  | e :: rest =>
    match e with
    | .comment _ => (if all || keeps then [e] else []) ++ keptFrom all keeps rest
    | .skipped => keptFrom all false rest
    | _ => e.kept all :: keptFrom all true rest

end

mutual

/-- The texts of the comments that are lost inside an entry. -/
def ListEntry.lost : ListEntry → List Text
  | .block _ inner => lostFrom true inner
  | _ => []

/-- The texts of the comments that are lost in a list, which `keeps` comments up to the first
mark that is skipped. -/
def lostFrom (keeps : Bool) : List ListEntry → List Text
  | [] => []
  | e :: rest =>
    match e with
    | .comment text => (if keeps then [] else [text]) ++ lostFrom keeps rest
    | .skipped => lostFrom false rest
    | _ => e.lost ++ lostFrom true rest

end

mutual

/-- The texts of the comments inside an entry, in the order of the source. -/
def ListEntry.comments : ListEntry → List Text
  | .comment text => [text]
  | .block _ inner => commentsIn inner
  | _ => []

/-- The texts of the comments in a list, in the order of the source. -/
def commentsIn : List ListEntry → List Text
  | [] => []
  | e :: rest => e.comments ++ commentsIn rest

end

mutual

/-- The texts of the comments of an item, in document order. -/
def Node.comments : Node → List Text
  | .rule _ children => Node.commentsAll children
  | .atBlock _ _ children => Node.commentsAll children
  | .comment text => [text]
  | _ => []

/-- The texts of the comments of a list of items, in document order. -/
def Node.commentsAll : List Node → List Text
  | [] => []
  | n :: rest => n.comments ++ Node.commentsAll rest

end

/-!
### What entries are read as
-/

/-- Entries are read one by one, in their order: a comment as its trimmed text, an item as itself,
with the entries of its block. -/
inductive EntriesRead (commas : Bool) : ItemList → List ListEntry → List Node → Prop
  | nil {kind : ItemList} : EntriesRead commas kind [] []
  | comment {kind : ItemList} {text : Text} {rest : List ListEntry} {nodes : List Node}
      (more : EntriesRead commas kind rest nodes) :
      EntriesRead commas kind (.comment text :: rest) (.comment (trim text) :: nodes)
  | statement {kind : ItemList} {front : List Tree} {n : Node} {rest : List ListEntry}
      {nodes : List Node} (read : ItemReads commas kind ⟨front, none⟩ n)
      (more : EntriesRead commas kind rest nodes) :
      EntriesRead commas kind (.statement front :: rest) (n :: nodes)
  | atBlock {kind : ItemList} {keyword : Tree} {name text : Text} {params : List Tree}
      {inner rest : List ListEntry} {children nodes : List Node}
      (named : keyword.token = .atKeyword name) (spelled : writeValue commas params = .ok text)
      (inside : EntriesRead commas (blockList name) inner children)
      (more : EntriesRead commas kind rest nodes) :
      EntriesRead commas kind (.block (keyword :: params) inner :: rest)
        (.atBlock name text children :: nodes)
  | rule {kind : ItemList} {text : Text} {selector : List Tree} {inner rest : List ListEntry}
      {children nodes : List Node} (list : kind ≠ .declarations)
      (plain : isAtRule selector = false) (spelled : writeValue commas selector = .ok text)
      (inside : EntriesRead commas .declarations inner children)
      (more : EntriesRead commas kind rest nodes) :
      EntriesRead commas kind (.block selector inner :: rest) (.rule text children :: nodes)

section Read

variable {commas : Bool} {kind : ItemList}

/-- An item without a block holds no comment. -/
theorem comments_of_statement {front : List Tree} {n : Node}
    (read : ItemReads commas kind ⟨front, none⟩ n) : n.comments = [] := by
  cases read with
  | atStatement => rfl
  | declaration => rfl

/-- The comments that are read are those of the entries, trimmed. -/
theorem EntriesRead.commentsAll {es : List ListEntry} {nodes : List Node}
    (read : EntriesRead commas kind es nodes) :
    Node.commentsAll nodes = (commentsIn es).map trim := by
  induction read with
  | nil => rfl
  | comment more ih =>
      rw [Node.commentsAll, ih, commentsIn, List.map_append]
      rfl
  | statement read more ih =>
      rw [Node.commentsAll, ih, comments_of_statement read, commentsIn, List.map_append]
      rfl
  | atBlock named spelled inside more here later =>
      rw [Node.commentsAll, Node.comments, here, later, commentsIn, List.map_append]
      rfl
  | rule list plain spelled inside more here later =>
      rw [Node.commentsAll, Node.comments, here, later, commentsIn, List.map_append]
      rfl

end Read

/-!
### Kept and lost comments
-/

mutual

theorem comments_kept (e : ListEntry) : (e.kept true).comments = e.comments := by
  cases e with
  | block front inner => exact commentsIn_keptFrom true inner
  | _ => rfl

/-- Only what is no comment is left out when all comments are kept. -/
theorem commentsIn_keptFrom (keeps : Bool) (es : List ListEntry) :
    commentsIn (keptFrom true keeps es) = commentsIn es := by
  cases es with
  | nil => rfl
  | cons e rest =>
      cases e with
      | comment text => exact congrArg (text :: ·) (commentsIn_keptFrom keeps rest)
      | skipped => exact commentsIn_keptFrom false rest
      | statement front => exact commentsIn_keptFrom true rest
      | block front inner =>
          exact congrArg₂ (· ++ ·) (comments_kept (.block front inner))
            (commentsIn_keptFrom true rest)

end

mutual

theorem length_comments_kept (e : ListEntry) :
    e.comments.length = (e.kept false).comments.length + e.lost.length := by
  cases e with
  | block front inner => exact length_commentsIn true inner
  | _ => rfl

/-- Each comment is kept or lost. -/
theorem length_commentsIn (keeps : Bool) (es : List ListEntry) :
    (commentsIn es).length =
      (commentsIn (keptFrom false keeps es)).length + (lostFrom keeps es).length := by
  cases es with
  | nil => rfl
  | cons e rest =>
      cases e with
      | comment text =>
          have others := length_commentsIn keeps rest
          cases keeps with
          | true =>
              simp [commentsIn, keptFrom, lostFrom, ListEntry.comments, others]
              omega
          | false =>
              simp [commentsIn, keptFrom, lostFrom, ListEntry.comments, others]
              omega
      | skipped => exact length_commentsIn false rest
      | statement front => exact length_commentsIn true rest
      | block front inner =>
          have inside := length_comments_kept (.block front inner)
          have others := length_commentsIn true rest
          simp only [commentsIn, keptFrom, lostFrom, List.length_append, inside, others]
          omega

end

mutual

theorem kept_of_lost {e : ListEntry} (none : e.lost = []) : e.kept false = e.kept true := by
  cases e with
  | block front inner => exact congrArg (ListEntry.block front) (keptFrom_of_lostFrom true none)
  | _ => rfl

/-- If no comment is lost, all are kept. -/
theorem keptFrom_of_lostFrom (keeps : Bool) {es : List ListEntry} (none : lostFrom keeps es = []) :
    keptFrom false keeps es = keptFrom true keeps es := by
  cases es with
  | nil => rfl
  | cons e rest =>
      cases e with
      | comment text =>
          cases keeps with
          | true => exact congrArg (ListEntry.comment text :: ·) (keptFrom_of_lostFrom true none)
          | false => cases none
      | skipped => exact keptFrom_of_lostFrom false none
      | statement front =>
          exact congrArg (ListEntry.statement front :: ·) (keptFrom_of_lostFrom true none)
      | block front inner =>
          obtain ⟨inside, others⟩ := List.append_eq_nil_iff.mp none
          have first : (ListEntry.block front inner).kept false =
              (ListEntry.block front inner).kept true :=
            kept_of_lost inside
          exact congrArg₂ List.cons first (keptFrom_of_lostFrom true others)

end

/-!
### Reading
-/

/-- Whether comments are kept where reading stands. -/
def Reading.keeps : Reading → Bool
  | .between keeps _ => keeps
  | _ => true

/-- The entries that are kept of a list from where reading stands behind the first trees of an
item. -/
def Reading.ahead (state : Reading) (kind : ItemList) (fresh : Bool) (front ts : List Tree) :
    List ListEntry :=
  keptFrom false state.keeps (entriesFrom kind fresh front ts)

/-- Reading one tree adds the items of its entries to those of what follows it. -/
def Adds (commas : Bool) (kind : ItemList) (fresh : Bool) (front : List Tree) (state : Reading)
    (t : Tree) (after : Reading) (done : List Node) : Prop :=
  ∃ fresh' front', Stands kind fresh' front' after ∧
    ∀ rest nodes, EntriesRead commas kind (after.ahead kind fresh' front' rest) nodes →
      EntriesRead commas kind (state.ahead kind fresh front (t :: rest)) (done ++ nodes)

section Run

variable {commas : Bool} {kind : ItemList} {fresh : Bool} {front : List Tree}
  {state after : Reading} {done : List Node}

/-- In front of the end of an item it does not count whether comments are kept. -/
theorem keptFrom_ended {e : ListEntry} (item : ∀ text, e ≠ .comment text) (keeps keeps' : Bool)
    (rest : List ListEntry) :
    keptFrom false keeps (ended fresh front e :: rest) =
      keptFrom false keeps' (ended fresh front e :: rest) := by
  rw [ended]
  split
  next => rfl
  next =>
    cases e with
    | comment text => exact absurd rfl (item text)
    | _ => rfl

theorem keptFrom_inside (begun : front ≠ []) (keeps keeps' : Bool) (ts : List Tree) :
    keptFrom false keeps (entriesFrom kind fresh front ts) =
      keptFrom false keeps' (entriesFrom kind fresh front ts) := by
  induction ts generalizing front with
  | nil =>
      rw [entriesFrom]
      split
      next => rfl
      next => exact keptFrom_ended (e := .statement front) nofun keeps keeps' []
  | cons t rest ih =>
      have filled : (front.isEmpty && t.separates kind) = false := by simp [begun]
      rw [entriesFrom, filled, if_neg Bool.false_ne_true]
      split
      next => exact keptFrom_ended (e := .statement front) nofun keeps keeps' _
      next =>
        split
        next => exact keptFrom_ended (e := .block front _) nofun keeps keeps' _
        next => exact ih (by simp)

/-- A tree that ends no item and stands not between items goes on with the item. -/
theorem adds_push {t : Tree} (stands : Stands kind fresh front state)
    (goes : ∀ rest, entriesFrom kind fresh front (t :: rest) =
      entriesFrom kind fresh (front ++ [t]) rest) :
    Adds commas kind fresh front state t (state.push kind t) [] := by
  refine ⟨fresh, front ++ [t], stands.concat t, fun rest nodes read => ?_⟩
  rw [Reading.ahead, goes, keptFrom_inside (by simp) _ (state.push kind t).keeps]
  exact read

/-- What is read of an item where it ends without a block. -/
theorem reads_of_endItem (stands : Stands kind fresh front state) (begun : front ≠ [])
    (counts : state ≠ .encoding) {stop : Position} {ending : Text}
    (read : endItem commas stop ending state = .ok done) :
    ∃ n, done = [n] ∧ ItemReads commas kind ⟨front, none⟩ n := by
  obtain ⟨outcome, same, reads⟩ := reads_endItem commas stands begun counts stop ending
  rw [read] at same
  obtain ⟨n, rfl, rfl⟩ := Option.map_eq_some_iff.mp same.symm
  have bare := (reads n.withoutComments).mp rfl
  refine ⟨n, rfl, ?_⟩
  cases n with
  | rule selector children => cases bare
  | atBlock name params children => cases bare
  | _ => exact bare

/-- An item that counts is an entry. -/
theorem ended_counts (stands : Stands kind fresh front state) (counts : state ≠ .encoding)
    (e : ListEntry) : ended fresh front e = e := by
  rw [ended, stands.isEncoding counts none]
  rfl

theorem separator_of_dark {t : Token} (dark : t.isBlank = false) : separator t = [.skipped] := by
  cases t with
  | whitespace => cases dark
  | comment text => cases dark
  | _ => rfl

/-- A lexeme between items is skipped, or begins an item. -/
theorem adds_leaf_between {keeps : Bool} (sheet : fresh = true → kind = .sheet) {lexeme : Lexeme}
    (step : readLeaf commas kind (.between keeps fresh) lexeme = .ok (after, done)) :
    Adds commas kind fresh [] (.between keeps fresh) (.leaf lexeme) after done := by
  have skip (blank : separatesItems kind lexeme.token = true) (rest : List Tree) :
      entriesFrom kind fresh [] (.leaf lexeme :: rest) =
        separator lexeme.token ++ entriesFrom kind fresh [] rest := by
    simp [entriesFrom, Tree.separates, blank, Tree.token, Tree.first]
  by_cases space : lexeme.token = .whitespace
  · rw [readLeaf.eq_1 commas kind lexeme keeps fresh space] at step
    cases step
    refine ⟨fresh, [], .between sheet, fun rest nodes read => ?_⟩
    rw [Reading.ahead, skip (by rw [space]; rfl), space]
    exact read
  by_cases comment : ∃ text, lexeme.token = .comment text
  · obtain ⟨text, comment⟩ := comment
    rw [readLeaf.eq_2 commas kind lexeme keeps fresh text comment] at step
    cases step
    refine ⟨fresh, [], .between sheet, fun rest nodes read => ?_⟩
    rw [Reading.ahead, skip (by rw [comment]; rfl), comment]
    cases keeps with
    | true => exact .comment read
    | false => exact read
  have other : ∀ text, lexeme.token = .comment text → False :=
    fun text same => comment ⟨text, same⟩
  have dark := isBlank_of_ne space other
  rw [readLeaf.eq_3 commas kind lexeme keeps fresh space other, ← separatesItems_eq dark] at step
  by_cases skipped : separatesItems kind lexeme.token = true
  · rw [if_pos skipped] at step
    cases step
    refine ⟨fresh, [], .between sheet, fun rest nodes read => ?_⟩
    rw [Reading.ahead, skip skipped, separator_of_dark dark]
    exact read
  · rw [if_neg skipped] at step
    cases step
    rw [Bool.not_eq_true] at skipped
    refine adds_push (.between sheet) fun rest => ?_
    simp [entriesFrom, Tree.separates, Tree.isSemicolon, Tree.isBraces, skipped,
      endsAtSemicolon_nil dark skipped]

/-- A lexeme in an item is a part of it, or the semicolon at its end. -/
theorem adds_leaf_inside (stands : Stands kind fresh front state) (begun : front ≠ [])
    {lexeme : Lexeme} (step : readLeaf commas kind state lexeme = .ok (after, done)) :
    Adds commas kind fresh front state (.leaf lexeme) after done := by
  have filled : front.isEmpty = false := by simpa using begun
  have inside := stands.isInside begun
  by_cases semicolon : lexeme.token = .semicolon
  · have ends (all : endsAtSemicolon kind front = true) (rest : List Tree) :
        entriesFrom kind fresh front (.leaf lexeme :: rest) =
          ended fresh front (.statement front) :: entriesFrom kind false [] rest := by
      simp [entriesFrom, filled, Tree.isSemicolon, semicolon, all]
    have complete (all : endsAtSemicolon kind front = true) (counts : state ≠ .encoding)
        (other : ∀ selector, state ≠ .rule selector) :
        Adds commas kind fresh front state (.leaf lexeme) after done := by
      rw [readLeaf.eq_6 commas kind lexeme state inside counts other semicolon, bind_eq_ok] at step
      obtain ⟨nodes, last, same⟩ := step
      cases same
      obtain ⟨n, rfl, read⟩ := reads_of_endItem stands begun counts last
      refine ⟨false, [], stands_next, fun rest nodes more => ?_⟩
      rw [Reading.ahead, ends all, ended_counts stands counts]
      exact .statement read more
    cases stands with
    | between => exact absurd rfl begun
    | encoding named =>
        rw [readLeaf.eq_4 commas .sheet lexeme semicolon] at step
        cases step
        refine ⟨false, [], stands_next, fun rest nodes read => ?_⟩
        rw [Reading.ahead, ends (endsAtSemicolon_of_encoding named), ended, named]
        exact read
    | atRule named => exact complete (endsAtSemicolon_of_named named _) (by simp) (by simp)
    | rule list plain =>
        rw [readLeaf.eq_5 commas kind lexeme _ semicolon] at step
        cases step
        refine adds_push (.rule list plain) fun rest => ?_
        simp [entriesFrom, Tree.isBraces, endsAtSemicolon_of_plain list plain]
    | declaration => exact complete (Bool.or_true _) (by simp) (by simp)
    | stray => exact complete (Bool.or_true _) (by simp) (by simp)
  · rw [readLeaf_part commas kind inside semicolon] at step
    cases step
    refine adds_push stands fun rest => ?_
    simp [entriesFrom, filled, Tree.isSemicolon, Tree.isBraces, semicolon]

/-- A block is a part of an item, or ends it. -/
theorem adds_block (stands : Stands kind fresh front state) {bracket : Bracket} {opener : Lexeme}
    {children : List Tree} {stop : Position} {closed : Bool}
    (inside : ∀ list nodes, list ≠ .sheet →
      readItems commas list stop (.start list) children = .ok nodes →
        EntriesRead commas list (keptFrom false true (entriesFrom list false [] children)) nodes)
    (step : readTree commas kind state (.block bracket opener children stop closed) =
      .ok (after, done)) :
    Adds commas kind fresh front state (.block bracket opener children stop closed) after done := by
  have quiet : Tree.separates kind (.block bracket opener children stop closed) = false := rfl
  have braces : Tree.isBraces (.block bracket opener children stop closed) =
      (bracket == .curly) := by
    cases bracket with
    | curly => rfl
    | _ => rfl
  by_cases ends : (bracket == .curly && endsWithBlock kind front) = true
  · have cuts (rest : List Tree) :
        entriesFrom kind fresh front (.block bracket opener children stop closed :: rest) =
          ended fresh front (.block front (entriesFrom (innerList front) false [] children)) ::
            entriesFrom kind false [] rest := by
      simp [entriesFrom, quiet, braces, ends, Tree.isSemicolon, Tree.entries]
    rw [Bool.and_eq_true] at ends
    obtain ⟨curly, ends⟩ := ends
    obtain rfl : bracket = .curly := eq_of_beq curly
    rcases blockRole_of_ends stands ends with ⟨rfl, rfl, named, role⟩ | ⟨counts, known⟩
    · rw [readTree, role] at step
      cases step
      refine ⟨false, [], stands_next, fun rest nodes read => ?_⟩
      rw [Reading.ahead, cuts, ended, named]
      exact read
    · have cuts' (rest : List Tree) : state.ahead kind fresh front
          (.block .curly opener children stop closed :: rest) =
            .block front (keptFrom false true (entriesFrom (innerList front) false [] children)) ::
              Reading.next.ahead kind false [] rest := by
        rw [Reading.ahead, cuts, ended_counts stands counts]
        rfl
      rcases known with ⟨keyword, name, params, rfl, named, role⟩ | ⟨list, plain, role⟩
      · simp only [readTree, role, bind_eq_ok] at step
        obtain ⟨text, spelled, nodes, read, same⟩ := step
        cases same
        refine ⟨false, [], stands_next, fun rest nodes more => ?_⟩
        rw [cuts', innerList_of_named named]
        exact .atBlock named spelled (inside _ _ (blockList_ne_sheet name) read) more
      · simp only [readTree, role, bind_eq_ok] at step
        obtain ⟨text, spelled, nodes, read, same⟩ := step
        cases same
        refine ⟨false, [], stands_next, fun rest nodes more => ?_⟩
        rw [cuts', innerList_of_plain plain]
        exact .rule list plain spelled (inside _ _ (by decide) read) more
  · rw [readTree, blockRole_of_not_ends stands ends] at step
    cases step
    refine adds_push stands fun rest => ?_
    rw [Bool.not_eq_true] at ends
    simp [entriesFrom, quiet, braces, ends, Tree.isSemicolon]

mutual

theorem adds_readTree {kind : ItemList} {fresh : Bool} {front : List Tree} {state after : Reading}
    {done : List Node} (stands : Stands kind fresh front state) (t : Tree)
    (step : readTree commas kind state t = .ok (after, done)) :
    Adds commas kind fresh front state t after done := by
  cases t with
  | leaf lexeme =>
      by_cases begun : front = []
      · subst begun
        cases stands with
        | between sheet => exact adds_leaf_between sheet step
      · exact adds_leaf_inside stands begun step
  | block bracket opener children stop closed =>
      refine adds_block stands (fun list nodes other read => ?_) step
      have fresh : (list == .sheet) = false := beq_eq_false_iff_ne.mpr other
      have start := stands_start list
      rw [fresh] at start
      exact entriesRead_readItems start children read

/-- The items of a list are read of its entries, without the comments that are lost. -/
theorem entriesRead_readItems {kind : ItemList} {fresh : Bool} {front : List Tree}
    {state : Reading} {stop : Position} (stands : Stands kind fresh front state) (ts : List Tree)
    {nodes : List Node} (read : readItems commas kind stop state ts = .ok nodes) :
    EntriesRead commas kind (state.ahead kind fresh front ts) nodes := by
  cases ts with
  | nil =>
      rw [readItems] at read
      by_cases begun : front = []
      · subst begun
        cases stands with
        | between =>
            cases read
            exact .nil
      · have filled : front.isEmpty = false := by simpa using begun
        by_cases encoding : state = .encoding
        · subst encoding
          cases stands with
          | encoding named =>
              cases read
              rw [Reading.ahead, entriesFrom, filled, ended, named]
              exact .nil
        · obtain ⟨n, rfl, last⟩ := reads_of_endItem stands begun encoding read
          rw [Reading.ahead, entriesFrom, filled, ended_counts stands encoding]
          exact .statement last .nil
  | cons t rest =>
      obtain ⟨after, done, later, step, more, rfl⟩ := readItems_cons_eq_ok.mp read
      obtain ⟨fresh', front', further, adds⟩ := adds_readTree stands t step
      exact adds rest later (entriesRead_readItems further rest more)

end

end Run

/-!
### The result
-/

/-- A sheet that is read holds the comments between its items in their places: the items and
comments of each list are those of the source, in their order, but for the comments that are lost.
A comment is lost if a mark that belongs to no item was skipped before it in its list, a stray
semicolon, a mark of an HTML comment or the encoding of the sheet, and no item has ended since.  All
comments between items are read exactly if none of them is lost. -/
theorem parse_keeps_comments {commas : Bool} {source : Text} {nodes : List Node}
    (read : parse commas source = .ok nodes) :
    EntriesRead commas .sheet
        (keptFrom false true (entries .sheet (trees (dropMark source)))) nodes ∧
      Node.commentsAll nodes =
        (commentsIn (keptFrom false true (entries .sheet (trees (dropMark source))))).map trim ∧
      (EntriesRead commas .sheet
            (keptFrom true true (entries .sheet (trees (dropMark source)))) nodes ∧
          Node.commentsAll nodes =
            (commentsIn (entries .sheet (trees (dropMark source)))).map trim ↔
        lostFrom true (entries .sheet (trees (dropMark source))) = []) := by
  have kept : EntriesRead commas .sheet
      (keptFrom false true (entries .sheet (trees (dropMark source)))) nodes :=
    entriesRead_readItems (stands_start .sheet) (trees (dropMark source)) read
  generalize entries .sheet (trees (dropMark source)) = es at kept
  refine ⟨kept, kept.commentsAll, ?_, ?_⟩
  · rintro ⟨-, all⟩
    have counted := length_commentsIn true es
    have same := congrArg List.length (kept.commentsAll.symm.trans all)
    rw [List.length_map, List.length_map] at same
    rw [← List.length_eq_zero_iff]
    omega
  · intro none
    rw [keptFrom_of_lostFrom true none] at kept
    refine ⟨kept, ?_⟩
    rw [kept.commentsAll, commentsIn_keptFrom]

/-- A sheet with comments in three lists, two of them behind a mark that is skipped. -/
def commentedSheet : Text :=
  "/* 1 */a\x7b/* 2 */;/* 3 */b:c;/* 4 */\x7d-->/* 5 */@media x\x7b/* 6 */\x7d".toList

/-- The comments behind the semicolon and behind the mark are lost, the others are read. -/
theorem parse_keeps_comments_commentedSheet :
    lostFrom true (entries .sheet (trees commentedSheet)) = [" 3 ".toList, " 5 ".toList] ∧
      ∃ nodes, parse true commentedSheet = .ok nodes ∧
        Node.commentsAll nodes = [['1'], ['2'], ['4'], ['6']] ∧
        EntriesRead true .sheet (keptFrom false true (entries .sheet (trees commentedSheet)))
          nodes := by
  have read : (parse true commentedSheet).toOption = some
      [.comment ['1'],
        .rule ['a'] [.comment ['2'], .declaration ⟨['b'], ['c'], false⟩, .comment ['4']],
        .atBlock "media".toList ['x'] [.comment ['6']]] := by
    decide +kernel
  have same : dropMark commentedSheet = commentedSheet := rfl
  obtain ⟨kept, -, -⟩ := parse_keeps_comments (toOption_eq_some.mp read)
  rw [same] at kept
  exact ⟨by decide +kernel, _, toOption_eq_some.mp read, by decide, kept⟩

/-- A sheet with a comment behind a stray semicolon. -/
def commentAfterSemicolon : Text := "a\x7b;/* c */x:1\x7d".toList

/-- A sheet with a comment behind its encoding. -/
def commentAfterEncoding : Text := "@charset \"x\";/* c */a\x7bx:1\x7d".toList

/-- A sheet with a comment behind the mark of an HTML comment. -/
def commentAfterMark : Text := "<!--/* c */a\x7bx:1\x7d".toList

/-- Comments behind a stray semicolon, behind the encoding of the sheet and behind the mark of an
HTML comment are not read. -/
theorem parse_loses_comments :
    (commentsIn (entries .sheet (trees (dropMark commentAfterSemicolon))) = [" c ".toList] ∧
        (parse true commentAfterSemicolon).toOption =
          some [.rule ['a'] [.declaration ⟨['x'], ['1'], false⟩]]) ∧
      (commentsIn (entries .sheet (trees (dropMark commentAfterEncoding))) = [" c ".toList] ∧
        (parse true commentAfterEncoding).toOption =
          some [.rule ['a'] [.declaration ⟨['x'], ['1'], false⟩]]) ∧
      commentsIn (entries .sheet (trees (dropMark commentAfterMark))) = [" c ".toList] ∧
        (parse true commentAfterMark).toOption =
          some [.rule ['a'] [.declaration ⟨['x'], ['1'], false⟩]] := by
  decide +kernel

end Swatch
