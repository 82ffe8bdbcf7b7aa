/-
Module: Swatch.Proofs.Items
Purpose: A list of items cut into its items, which of them are well formed, and what each of them
  is read as.
Main exports:
  Item, cut, items, WellFormed, Accepted, ItemReads, ItemsRead, Inherited, exists_itemsRead_iff
-/
import Swatch.Proofs.Pieces

namespace Swatch

/-!
### Cutting

Where an item ends is told from its trees alone, before anything of it is read.
-/

/-- An item: the trees before its end, and the contents of the block that ends it, if one does. -/
structure Item where
  front : List Tree
  block : Option (List Tree)

/-- Whether trees start with an at-keyword. -/
def isAtRule (front : List Tree) : Bool :=
  front.head?.any fun t =>
    match t.token with
    | .atKeyword _ => true
    | _ => false

/-- Whether a token before an item belongs to no item. -/
def separatesItems : ItemList → Token → Bool
  | _, .whitespace => true
  | _, .comment _ => true
  | .sheet, .commentOpen => true
  | .sheet, .commentClose => true
  | .declarations, .semicolon => true
  | _, _ => false

/-- Whether an item ends at a semicolon.  A rule goes on up to its block. -/
def endsAtSemicolon (kind : ItemList) (front : List Tree) : Bool :=
  isAtRule front || kind == .declarations

/-- Whether an item ends with a block in braces.  A declaration may hold braces. -/
def endsWithBlock (kind : ItemList) (front : List Tree) : Bool :=
  isAtRule front || kind != .declarations

/-- The items of a list behind the first trees of one. -/
def cut (kind : ItemList) : (front : List Tree) → List Tree → List Item
  | front, [] => if front.isEmpty then [] else [⟨front, none⟩]
  | front, .leaf lexeme :: rest =>
    if front.isEmpty && separatesItems kind lexeme.token then cut kind [] rest
    else if lexeme.token == .semicolon && endsAtSemicolon kind front then
      ⟨front, none⟩ :: cut kind [] rest
    else cut kind (front ++ [.leaf lexeme]) rest
  | front, .block bracket opener children stop closed :: rest =>
    if bracket == .curly && endsWithBlock kind front then
      ⟨front, some children⟩ :: cut kind [] rest
    else cut kind (front ++ [.block bracket opener children stop closed]) rest

/-- Whether an item says how a sheet is encoded. -/
def Item.isEncoding (item : Item) : Bool :=
  item.front.head?.any fun t =>
    match t.token with
    | .atKeyword name => lowercase name == "charset".toList
    | _ => false

/-- The items of a list behind the first trees of one.  A `fresh` list is that of a sheet of which
no item has ended before; if its first item says how the sheet is encoded, it does not count. -/
def itemsFrom (kind : ItemList) (fresh : Bool) (front ts : List Tree) : List Item :=
  match cut kind front ts with
  | [] => []
  | first :: rest => if fresh && first.isEncoding then rest else first :: rest

/-- The items of a list. -/
def items (kind : ItemList) (ts : List Tree) : List Item := itemsFrom kind (kind == .sheet) [] ts

/-!
### Well-formed items
-/

/-- Trees without a broken string or address, at any depth. -/
def Whole (ts : List Tree) : Prop := ∀ p ∈ piecesAll ts, p.token.isBroken = false

/-- White space and comments. -/
def AllBlank (ts : List Tree) : Prop := ∀ t ∈ ts, t.isBlank = true

/-- What may stand behind a value: nothing, or an exclamation mark and the word `important`. -/
def IsImportance (tail : List Tree) : Prop :=
  tail = [] ∨ ∃ bang before word after, tail = bang :: (before ++ word :: after) ∧
    bang.isBang = true ∧ AllBlank before ∧ word.isImportant = true ∧ AllBlank after

/-- Items that can be read.  At-rules stand in all lists, rules and declarations do not stand in
the same one. -/
inductive WellFormed : ItemList → Item → Prop
  | atStatement {kind : ItemList} {keyword : Tree} {name : Text} {params : List Tree}
      (named : keyword.token = .atKeyword name) (whole : Whole params) :
      WellFormed kind ⟨keyword :: params, none⟩
  | atBlock {kind : ItemList} {keyword : Tree} {name : Text} {params children : List Tree}
      (named : keyword.token = .atKeyword name) (whole : Whole params)
      (inside : ∀ item ∈ items (blockList name) children, WellFormed (blockList name) item) :
      WellFormed kind ⟨keyword :: params, some children⟩
  | rule {kind : ItemList} {selector children : List Tree} (list : kind ≠ .declarations)
      (plain : isAtRule selector = false) (whole : Whole selector)
      (inside : ∀ item ∈ items .declarations children, WellFormed .declarations item) :
      WellFormed kind ⟨selector, some children⟩
  | declaration {property colon : Tree} {name : Text} {blanks value tail : List Tree}
      (named : property.token = .ident name) (blank : AllBlank blanks)
      (separates : colon.token = .colon) (calm : ∀ t ∈ value, t.isBang = false)
      (whole : Whole value) (importance : IsImportance tail) :
      WellFormed .declarations ⟨property :: (blanks ++ colon :: (value ++ tail)), none⟩

/-- A list all of whose items are well formed. -/
def Accepted (kind : ItemList) (ts : List Tree) : Prop :=
  ∀ item ∈ items kind ts, WellFormed kind item

/-!
### What items are read as
-/

mutual

/-- What an item is read as, comments apart: its texts are the normal spellings of its trees. -/
inductive ItemReads (commas : Bool) : ItemList → Item → Node → Prop
  | atStatement {kind : ItemList} {keyword : Tree} {name text : Text} {params : List Tree}
      (named : keyword.token = .atKeyword name) (spelled : writeValue commas params = .ok text) :
      ItemReads commas kind ⟨keyword :: params, none⟩ (.atStatement name text)
  | atBlock {kind : ItemList} {keyword : Tree} {name text : Text} {params children : List Tree}
      {nodes : List Node}
      (named : keyword.token = .atKeyword name) (spelled : writeValue commas params = .ok text)
      (inside : ItemsRead commas (blockList name) (items (blockList name) children) nodes) :
      ItemReads commas kind ⟨keyword :: params, some children⟩ (.atBlock name text nodes)
  | rule {kind : ItemList} {text : Text} {selector children : List Tree} {nodes : List Node}
      (list : kind ≠ .declarations) (plain : isAtRule selector = false)
      (spelled : writeValue commas selector = .ok text)
      (inside : ItemsRead commas .declarations (items .declarations children) nodes) :
      ItemReads commas kind ⟨selector, some children⟩ (.rule text nodes)
  | declaration {property colon : Tree} {name text : Text} {blanks value tail : List Tree}
      (named : property.token = .ident name) (blank : AllBlank blanks)
      (separates : colon.token = .colon) (calm : ∀ t ∈ value, t.isBang = false)
      (spelled : writeValue commas value = .ok text) (importance : IsImportance tail) :
      ItemReads commas .declarations ⟨property :: (blanks ++ colon :: (value ++ tail)), none⟩
        (.declaration ⟨name, text, !tail.isEmpty⟩)

/-- Items are read one by one, in their order. -/
inductive ItemsRead (commas : Bool) : ItemList → List Item → List Node → Prop
  | nil {kind : ItemList} : ItemsRead commas kind [] []
  | cons {kind : ItemList} {item : Item} {rest : List Item} {n : Node} {nodes : List Node}
      (first : ItemReads commas kind item n) (more : ItemsRead commas kind rest nodes) :
      ItemsRead commas kind (item :: rest) (n :: nodes)

end

/-!
### Items hold the trees of their list
-/

/-- The trees of an item are nested as those of a text are. -/
def Item.Holds (item : Item) : Prop :=
  HoldsAll (fun _ => True) item.front ∧ ∀ children ∈ item.block, HoldsAll (fun _ => True) children

theorem holdsAll_of_append {P : Token → Prop} {front back : List Tree}
    (holds : HoldsAll P (front ++ back)) : HoldsAll P front ∧ HoldsAll P back :=
  ⟨holds.sublist (List.sublist_append_left front back),
    holds.sublist (List.sublist_append_right front back)⟩

/-- What holds of trees and of the trees that follow each other among them, at any depth. -/
structure Inherited (P : List Tree → Prop) : Prop where
  left : ∀ xs ys, P (xs ++ ys) → P xs
  right : ∀ xs ys, P (xs ++ ys) → P ys
  inside : ∀ bracket opener children stop closed,
    P [.block bracket opener children stop closed] → P children

theorem inherited_holds {Q : Token → Prop} : Inherited (HoldsAll Q) where
  left _ _ holds := (holdsAll_of_append holds).1
  right _ _ holds := (holdsAll_of_append holds).2
  inside _ _ _ _ _ holds := holds.1.2

theorem mem_cut_of_mem_items {kind : ItemList} {ts : List Tree} {item : Item}
    (member : item ∈ items kind ts) : item ∈ cut kind [] ts := by
  rw [items, itemsFrom] at member
  split at member
  next => cases member
  next first rest all =>
    rw [all]
    split at member
    next => exact List.mem_cons_of_mem first member
    next => exact member

/-- Items hold trees that follow each other. -/
theorem Inherited.cut {P : List Tree → Prop} (inherited : Inherited P) {kind : ItemList}
    {front ts : List Tree} (holds : P (front ++ ts)) :
    ∀ item ∈ Swatch.cut kind front ts, P item.front ∧ ∀ children ∈ item.block, P children := by
  fun_induction Swatch.cut kind front ts with
  | case1 front empty => exact List.forall_mem_nil _
  | case2 front some => exact List.forall_mem_singleton.mpr ⟨inherited.left _ _ holds, nofun⟩
  | case3 front lexeme rest blank ih => exact ih (inherited.right [_] _ (inherited.right _ _ holds))
  | case4 front lexeme rest dark ends ih =>
      exact List.forall_mem_cons.mpr ⟨⟨inherited.left _ _ holds, nofun⟩,
        ih (inherited.right [_] _ (inherited.right _ _ holds))⟩
  | case5 front lexeme rest dark goes ih => exact ih (by rwa [List.append_assoc])
  | case6 front bracket opener children stop closed rest ends ih =>
      have later := inherited.right _ _ holds
      refine List.forall_mem_cons.mpr
        ⟨⟨inherited.left _ _ holds, ?_⟩, ih (inherited.right [_] _ later)⟩
      intro inside same
      rw [← Option.some.inj same]
      exact inherited.inside _ _ _ _ _ (inherited.left [_] rest later)
  | case7 front bracket opener children stop closed rest goes ih =>
      exact ih (by rwa [List.append_assoc])

theorem Inherited.items {P : List Tree → Prop} (inherited : Inherited P) {kind : ItemList}
    {ts : List Tree} (holds : P ts) :
    ∀ item ∈ Swatch.items kind ts, P item.front ∧ ∀ children ∈ item.block, P children := by
  have started : P ([] ++ ts) := holds
  exact fun item member => inherited.cut started item (mem_cut_of_mem_items member)

theorem holds_items {kind : ItemList} {ts : List Tree} (holds : HoldsAll (fun _ => True) ts) :
    ∀ item ∈ items kind ts, item.Holds :=
  inherited_holds.items holds

/-!
### Well-formed items are those that are read
-/

section WellFormed

variable {commas : Bool} {kind : ItemList}

/-- Trees have a normal spelling as long as they are whole. -/
theorem exists_writeValue_iff {ts : List Tree} (holds : HoldsAll (fun _ => True) ts) :
    (∃ w, writeValue commas ts = .ok w) ↔ Whole ts := by
  constructor
  · rintro ⟨w, written⟩
    exact (writeValue_spell holds written).1
  · exact exists_writeTrees false false false

/-- Items each of which is read are read together. -/
theorem exists_itemsRead {all : List Item}
    (each : ∀ item ∈ all, ∃ n, ItemReads commas kind item n) :
    ∃ nodes, ItemsRead commas kind all nodes := by
  induction all with
  | nil => exact ⟨[], .nil⟩
  | cons item rest ih =>
      obtain ⟨⟨n, first⟩, others⟩ := List.forall_mem_cons.mp each
      obtain ⟨nodes, more⟩ := ih others
      exact ⟨n :: nodes, .cons first more⟩

/-- A well-formed item is read. -/
theorem WellFormed.reads {item : Item} (formed : WellFormed kind item) (holds : item.Holds) :
    ∃ n, ItemReads commas kind item n := by
  induction formed with
  | atStatement named whole =>
      obtain ⟨text, spelled⟩ := (exists_writeValue_iff holds.1.2).mpr whole
      exact ⟨_, .atStatement named spelled⟩
  | atBlock named whole inside ih =>
      obtain ⟨text, spelled⟩ := (exists_writeValue_iff holds.1.2).mpr whole
      obtain ⟨nodes, read⟩ := exists_itemsRead fun item member =>
        ih item member (holds_items (holds.2 _ rfl) item member)
      exact ⟨_, .atBlock named spelled read⟩
  | rule list plain whole inside ih =>
      obtain ⟨text, spelled⟩ := (exists_writeValue_iff holds.1).mpr whole
      obtain ⟨nodes, read⟩ := exists_itemsRead fun item member =>
        ih item member (holds_items (holds.2 _ rfl) item member)
      exact ⟨_, .rule list plain spelled read⟩
  | declaration named blank separates calm whole importance =>
      obtain ⟨-, later⟩ := holdsAll_of_append holds.1.2
      obtain ⟨value, -⟩ := holdsAll_of_append later.2
      obtain ⟨text, spelled⟩ := (exists_writeValue_iff value).mpr whole
      exact ⟨_, .declaration named blank separates calm spelled importance⟩

mutual

/-- An item that is read is well formed. -/
theorem ItemReads.wellFormed {kind : ItemList} {item : Item} {n : Node}
    (read : ItemReads commas kind item n) (holds : item.Holds) : WellFormed kind item := by
  cases read with
  | atStatement named spelled =>
      exact .atStatement named ((exists_writeValue_iff holds.1.2).mp ⟨_, spelled⟩)
  | atBlock named spelled inside =>
      have whole := (exists_writeValue_iff holds.1.2).mp ⟨_, spelled⟩
      exact .atBlock named whole (inside.wellFormed (holds_items (holds.2 _ rfl)))
  | rule list plain spelled inside =>
      have whole := (exists_writeValue_iff holds.1).mp ⟨_, spelled⟩
      exact .rule list plain whole (inside.wellFormed (holds_items (holds.2 _ rfl)))
  | declaration named blank separates calm spelled importance =>
      obtain ⟨-, later⟩ := holdsAll_of_append holds.1.2
      obtain ⟨value, -⟩ := holdsAll_of_append later.2
      have whole := (exists_writeValue_iff value).mp ⟨_, spelled⟩
      exact .declaration named blank separates calm whole importance

theorem ItemsRead.wellFormed {kind : ItemList} {all : List Item} {nodes : List Node}
    (read : ItemsRead commas kind all nodes) (holds : ∀ item ∈ all, item.Holds) :
    ∀ item ∈ all, WellFormed kind item := by
  cases read with
  | nil => exact List.forall_mem_nil _
  | cons first more =>
      obtain ⟨here, later⟩ := List.forall_mem_cons.mp holds
      exact List.forall_mem_cons.mpr ⟨first.wellFormed here, more.wellFormed later⟩

end

/-- The lists that are read are those whose items are all well formed. -/
theorem exists_itemsRead_iff (commas : Bool) {ts : List Tree}
    (holds : HoldsAll (fun _ => True) ts) :
    (∃ nodes, ItemsRead commas kind (items kind ts) nodes) ↔ Accepted kind ts := by
  have nested : ∀ item ∈ items kind ts, item.Holds := holds_items holds
  constructor
  · rintro ⟨nodes, read⟩
    exact read.wellFormed nested
  · intro accepted
    exact exists_itemsRead fun item member =>
      (accepted item member).reads (nested item member)

end WellFormed

end Swatch
