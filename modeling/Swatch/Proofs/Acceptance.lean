/-
Module: Swatch.Proofs.Acceptance
Purpose: A list of items is read exactly when each of its items is well formed, and then item by
  item.
Main exports:
  readDeclaration_iff, Stands, Turn, readItems_iff, parse_iff_itemsRead, parse_accepts_wellFormed
-/
import Swatch.Proofs.Items
import Swatch.Proofs.Reread
import Swatch.Proofs.Stripping

namespace Swatch

/-!
### Declarations
-/

theorem dropBlank_eq_cons_iff {body after : List Tree} {t : Tree} (dark : t.isBlank = false) :
    Tree.dropBlank body = t :: after ↔
      ∃ blanks, AllBlank blanks ∧ body = blanks ++ t :: after := by
  rw [Tree.dropBlank]
  constructor
  · intro dropped
    refine ⟨body.takeWhile Tree.isBlank, fun _ => List.mem_takeWhile_imp, ?_⟩
    rw [← dropped, List.takeWhile_append_dropWhile]
  · rintro ⟨blanks, all, rfl⟩
    have stops : ¬t.isBlank = true := by simp [dark]
    rw [List.dropWhile_append_of_pos all, List.dropWhile_cons_of_neg stops]

theorem dropBlank_eq_nil_iff {body : List Tree} : Tree.dropBlank body = [] ↔ AllBlank body :=
  List.dropWhile_eq_nil_iff

/-- A tree that is the word `important` is not blank. -/
theorem isBlank_of_isImportant {t : Tree} (word : t.isImportant = true) : t.isBlank = false := by
  rw [Tree.isImportant] at word
  split at word
  next name named =>
    rw [Tree.isBlank, named]
    rfl
  next => cases word

/-- Behind an exclamation mark the word `important` has to follow, and nothing else. -/
theorem readImportance_cons {stop : Position} {bang : Tree} {after : List Tree}
    {important : Bool} :
    (readImportance stop (bang :: after)).toOption = some important ↔
      important = true ∧ ∃ word rest, Tree.dropBlank after = word :: rest ∧
        word.isImportant = true ∧ Tree.dropBlank rest = [] := by
  rw [readImportance]
  cases Tree.dropBlank after with
  | nil => simp [Except.toOption]
  | cons word rest =>
      cases isWord : word.isImportant with
      | false => simp [Except.toOption, isWord]
      | true =>
          cases behind : Tree.dropBlank rest with
          | nil =>
              have flip : true = important ↔ important = true := eq_comm
              simp [Except.toOption, isWord, behind, flip]
          | cons t more => simp [Except.toOption, isWord, behind]

/-- What stands behind a value is read if it may stand there. -/
theorem readImportance_iff {stop : Position} {tail : List Tree}
    (starts : ∀ t ∈ tail.head?, t.isBang = true) {important : Bool} :
    (readImportance stop tail).toOption = some important ↔
      IsImportance tail ∧ important = !tail.isEmpty := by
  cases tail with
  | nil =>
      have flip : false = important ↔ important = false := eq_comm
      simp [readImportance, Except.toOption, IsImportance, flip]
  | cons bang after =>
      rw [readImportance_cons]
      constructor
      · rintro ⟨rfl, word, rest, found, isWord, nothing⟩
        obtain ⟨before, blank, rfl⟩ :=
          (dropBlank_eq_cons_iff (isBlank_of_isImportant isWord)).mp found
        exact ⟨Or.inr ⟨bang, before, word, rest, rfl, starts bang rfl, blank, isWord,
          dropBlank_eq_nil_iff.mp nothing⟩, rfl⟩
      · rintro ⟨none | ⟨_, before, word, rest, same, -, blank, isWord, nothing⟩, rfl⟩
        · cases none
        · obtain ⟨rfl, rfl⟩ := List.cons.inj same
          exact ⟨rfl, word, rest,
            (dropBlank_eq_cons_iff (isBlank_of_isImportant isWord)).mpr ⟨before, blank, rfl⟩,
            isWord, dropBlank_eq_nil_iff.mpr nothing⟩

theorem starts_of_isImportance {tail : List Tree} (importance : IsImportance tail) :
    ∀ t ∈ tail.head?, t.isBang = true := by
  rcases importance with rfl | ⟨bang, before, word, after, rfl, isBang, -⟩
  · nofun
  · rintro t ⟨⟩
    exact isBang

/-- A declaration is read if a colon, a value and what may stand behind a value follow its
property. -/
theorem readDeclaration_iff {commas : Bool} {stop : Position} {item property : Text}
    {body : List Tree} {d : Declaration} :
    (readDeclaration commas stop item property body).toOption = some d ↔
      ∃ blanks colon value tail text, body = blanks ++ colon :: (value ++ tail) ∧
        AllBlank blanks ∧ colon.token = .colon ∧ (∀ t ∈ value, t.isBang = false) ∧
        writeValue commas value = .ok text ∧ IsImportance tail ∧
        d = ⟨property, text, !tail.isEmpty⟩ := by
  rw [toOption_readDeclaration]
  have dark {colon : Tree} (separates : colon.token = .colon) : colon.isBlank = false := by
    rw [Tree.isBlank, separates]
    rfl
  constructor
  · intro read
    split at read
    next => cases read
    next colon after found =>
      rw [Option.ite_none_right_eq_some] at read
      obtain ⟨separates, read⟩ := read
      obtain ⟨blanks, blank, rfl⟩ := (dropBlank_eq_cons_iff (dark separates)).mp found
      simp only [Option.bind_eq_some_iff, Option.map_eq_some_iff] at read
      obtain ⟨text, spelled, important, behind, rfl⟩ := read
      have starts : ∀ t ∈ (importancePart after).head?, t.isBang = true := by
        intro t first
        have fails := List.head?_dropWhile_not (fun u : Tree => !u.isBang) after
        rw [importancePart] at first
        rw [Option.mem_def.mp first] at fails
        simpa using fails
      obtain ⟨importance, rfl⟩ := (readImportance_iff starts).mp behind
      refine ⟨blanks, colon, valuePart after, importancePart after, text, ?_, blank, separates,
        ?_, toOption_eq_some.mp spelled, importance, rfl⟩
      · rw [valuePart, importancePart, List.takeWhile_append_dropWhile]
      · intro t member
        simpa using List.mem_takeWhile_imp member
  · rintro ⟨blanks, colon, value, tail, text, rfl, blank, separates, calm, spelled,
      importance, rfl⟩
    have starts := starts_of_isImportance importance
    obtain ⟨front, back⟩ := valuePart_append calm starts
    rw [(dropBlank_eq_cons_iff (dark separates)).mpr ⟨blanks, blank, rfl⟩]
    have behind : (readImportance stop tail).toOption = some !tail.isEmpty :=
      (readImportance_iff starts).mpr ⟨importance, rfl⟩
    simp only [if_pos separates, front, back, toOption_eq_some.mpr spelled, behind]
    rfl

/-!
### Between the trees of an item
-/

/-- The state of reading behind the first trees of an item. -/
inductive Stands : ItemList → (fresh : Bool) → List Tree → Reading → Prop
  | between {kind : ItemList} {keeps fresh : Bool} (sheet : fresh = true → kind = .sheet) :
      Stands kind fresh [] (.between keeps fresh)
  | encoding {keyword : Tree} {params : List Tree}
      (named : Item.isEncoding ⟨keyword :: params, none⟩ = true) :
      Stands .sheet true (keyword :: params) .encoding
  | atRule {kind : ItemList} {fresh : Bool} {keyword : Tree} {name : Text} {params : List Tree}
      (named : keyword.token = .atKeyword name)
      (kept : fresh = true → lowercase name ≠ "charset".toList) :
      Stands kind fresh (keyword :: params) (.atRule name params.reverse)
  | rule {kind : ItemList} {fresh : Bool} {first : Tree} {selector : List Tree}
      (list : kind ≠ .declarations) (plain : isAtRule (first :: selector) = false) :
      Stands kind fresh (first :: selector) (.rule (first :: selector).reverse)
  | declaration {fresh : Bool} {property : Tree} {name : Text} {body : List Tree}
      (named : property.token = .ident name) :
      Stands .declarations fresh (property :: body) (.declaration property name body.reverse)
  | stray {fresh : Bool} {first : Tree} {rest : List Tree}
      (plain : isAtRule (first :: rest) = false)
      (nameless : ∀ name, first.token ≠ .ident name) :
      Stands .declarations fresh (first :: rest) (.stray first rest.reverse)

theorem isAtRule_of_token {t : Tree} {name : Text} (named : t.token = .atKeyword name)
    (rest : List Tree) : isAtRule (t :: rest) = true := by
  simp [isAtRule, named]

theorem isAtRule_of_ne {t : Tree} (other : ∀ name, t.token ≠ .atKeyword name)
    (rest : List Tree) : isAtRule (t :: rest) = false := by
  rw [isAtRule, List.head?_cons, Option.any_some]
  split
  next name named => exact absurd named (other name)
  next => rfl

/-- The first tree of an item tells what it is. -/
theorem stands_begin {kind : ItemList} {fresh : Bool} (sheet : fresh = true → kind = .sheet)
    (t : Tree) : Stands kind fresh [t] (Reading.begin kind fresh t) := by
  have other (plain : isAtRule [t] = false) (nameless : ∀ name, t.token ≠ .ident name) :
      Stands kind fresh [t] (if kind = .declarations then .stray t [] else .rule [t]) := by
    split
    next list =>
      subst list
      exact .stray plain nameless
    next list => exact .rule list plain
  rw [Reading.begin]
  split
  next name named =>
    split
    next encoding =>
      obtain ⟨rfl, rfl, charset⟩ := encoding
      exact .encoding (by simp [Item.isEncoding, named, charset])
    next kept =>
      refine .atRule named ?_
      intro fresh charset
      exact kept ⟨sheet fresh, fresh, charset⟩
  next name named =>
    have plain : isAtRule [t] = false := isAtRule_of_ne (by simp [named]) []
    split
    next list =>
      subst list
      exact .declaration named
    next list => exact .rule list plain
  next keyword nameless => exact other (isAtRule_of_ne keyword []) nameless

section Run

variable {commas : Bool} {kind : ItemList} {fresh : Bool} {front : List Tree} {state : Reading}

/-- Behind an item the list is not fresh. -/
theorem stands_next {keeps : Bool} : Stands kind false [] (.between keeps false) :=
  .between fun fresh => absurd fresh Bool.false_ne_true

/-- One more tree of an item. -/
theorem Stands.concat (stands : Stands kind fresh front state) (t : Tree) :
    Stands kind fresh (front ++ [t]) (state.push kind t) := by
  cases stands with
  | between sheet => exact stands_begin sheet t
  | encoding named => exact .encoding named
  | @atRule _ _ keyword name params named kept =>
      have more : Stands kind fresh (keyword :: (params ++ [t]))
          (.atRule name (params ++ [t]).reverse) := .atRule named kept
      rw [List.reverse_concat] at more
      exact more
  | @rule _ _ first selector list plain =>
      have more : Stands kind fresh (first :: (selector ++ [t]))
          (.rule (first :: (selector ++ [t])).reverse) := .rule list plain
      rw [← List.cons_append, List.reverse_concat] at more
      exact more
  | @declaration _ property name body named =>
      have more : Stands .declarations fresh (property :: (body ++ [t]))
          (.declaration property name (body ++ [t]).reverse) := .declaration named
      rw [List.reverse_concat] at more
      exact more
  | @stray _ first rest plain nameless =>
      have more : Stands .declarations fresh (first :: (rest ++ [t]))
          (.stray first (rest ++ [t]).reverse) := .stray plain nameless
      rw [List.reverse_concat] at more
      exact more

/-- An item that is no at-rule is not the encoding of the sheet. -/
theorem isEncoding_of_plain {block : Option (List Tree)} (plain : isAtRule front = false) :
    Item.isEncoding ⟨front, block⟩ = false := by
  cases front with
  | nil => rfl
  | cons t rest =>
      rw [isAtRule, List.head?_cons, Option.any_some] at plain
      rw [Item.isEncoding, List.head?_cons, Option.any_some]
      split at plain
      next => cases plain
      next => rfl

/-- Only what is read as the encoding of the sheet does not count. -/
theorem Stands.isEncoding (stands : Stands kind fresh front state) (inside : state ≠ .encoding)
    (block : Option (List Tree)) : (fresh && Item.isEncoding ⟨front, block⟩) = false := by
  cases stands with
  | between => exact Bool.and_false _
  | encoding => exact absurd rfl inside
  | atRule named kept =>
      cases fresh with
      | false => rfl
      | true => simpa [Item.isEncoding, named] using kept rfl
  | rule list plain => rw [isEncoding_of_plain plain, Bool.and_false]
  | declaration named =>
      rw [isEncoding_of_plain (isAtRule_of_ne (by simp [named]) _), Bool.and_false]
  | stray plain => rw [isEncoding_of_plain plain, Bool.and_false]

/-- Where an item has begun, the reading is not between items. -/
theorem Stands.isInside (stands : Stands kind fresh front state) (begun : front ≠ []) :
    state.IsInside := by
  cases stands with
  | between => exact absurd rfl begun
  | _ =>
      intro keeps fresh same
      cases same

theorem itemsFrom_congr {front' ts us : List Tree} (same : cut kind front ts = cut kind front' us) :
    itemsFrom kind fresh front ts = itemsFrom kind fresh front' us := by
  rw [itemsFrom, itemsFrom, same]

/-- An item that counts is the first one of those from it on. -/
theorem itemsFrom_cons {ts us : List Tree} {item : Item}
    (cuts : cut kind front ts = item :: cut kind [] us)
    (counts : (fresh && item.isEncoding) = false) :
    itemsFrom kind fresh front ts = item :: itemsFrom kind false [] us := by
  rw [itemsFrom, cuts]
  dsimp only
  rw [counts, itemsFrom]
  cases cut kind [] us with
  | nil => rfl
  | cons first rest => rfl

/-- The encoding of the sheet does not count. -/
theorem itemsFrom_encoding {ts us : List Tree} {item : Item}
    (cuts : cut kind front ts = item :: cut kind [] us) (encoding : item.isEncoding = true) :
    itemsFrom kind true front ts = itemsFrom kind false [] us := by
  rw [itemsFrom, cuts]
  dsimp only
  rw [encoding, itemsFrom]
  cases cut kind [] us with
  | nil => rfl
  | cons first rest => rfl

/-!
### Ends of items
-/

/-- The outcome of an item is what it is read as, comments apart. -/
def Reads (commas : Bool) (kind : ItemList) (item : Item) (outcome : Option Node) : Prop :=
  ∀ n, outcome.map Node.withoutComments = some n ↔ ItemReads commas kind item n

theorem reads_atStatement {keyword : Tree} {name : Text} (named : keyword.token = .atKeyword name)
    (params : List Tree) :
    Reads commas kind ⟨keyword :: params, none⟩
      ((writeValue commas params).toOption.map (Node.atStatement name)) := by
  intro n
  simp only [Option.map_map, Option.map_eq_some_iff, toOption_eq_some]
  constructor
  · rintro ⟨text, spelled, rfl⟩
    exact .atStatement named spelled
  · intro read
    cases read with
    | atStatement other spelled =>
        obtain rfl := Token.atKeyword.inj (named.symm.trans other)
        exact ⟨_, spelled, rfl⟩
    | declaration other =>
        rw [named] at other
        cases other

theorem reads_declaration {property : Tree} {name : Text} (named : property.token = .ident name)
    (stop : Position) (text : Text) (body : List Tree) :
    Reads commas .declarations ⟨property :: body, none⟩
      ((readDeclaration commas stop text name body).toOption.map Node.declaration) := by
  intro n
  simp only [Option.map_map, Option.map_eq_some_iff, readDeclaration_iff]
  constructor
  · rintro ⟨d, ⟨blanks, colon, value, tail, text, rfl, blank, separates, calm, spelled,
      importance, rfl⟩, rfl⟩
    exact .declaration named blank separates calm spelled importance
  · intro read
    generalize whole : (⟨property :: body, none⟩ : Item) = item at read
    cases read with
    | atStatement other =>
        cases whole
        rw [named] at other
        cases other
    | atBlock => cases whole
    | rule => cases whole
    | declaration other blank separates calm spelled importance =>
        cases whole
        obtain rfl := Token.ident.inj (named.symm.trans other)
        exact ⟨_, ⟨_, _, _, _, _, rfl, blank, separates, calm, spelled, importance, rfl⟩, rfl⟩

/-- Nothing is read of an item that no item can start with, and of a rule without a block. -/
theorem reads_none (plain : isAtRule front = false)
    (nameless : kind = .declarations → ∀ t ∈ front.head?, ∀ name, t.token ≠ .ident name) :
    Reads commas kind ⟨front, none⟩ none := by
  intro n
  constructor
  · nofun
  · intro read
    cases read with
    | atStatement named =>
        rw [isAtRule_of_token named] at plain
        cases plain
    | declaration named => exact absurd named (nameless rfl _ rfl _)

/-- An item that has begun is read where it ends without a block. -/
theorem reads_endItem (commas : Bool) (stands : Stands kind fresh front state)
    (begun : front ≠ []) (counts : state ≠ .encoding) (stop : Position) (ending : Text) :
    ∃ outcome : Option Node,
      (endItem commas stop ending state).toOption = outcome.map (fun n => [n]) ∧
        Reads commas kind ⟨front, none⟩ outcome := by
  cases stands with
  | between => exact absurd rfl begun
  | encoding => exact absurd rfl counts
  | @atRule _ _ keyword name params named =>
      refine ⟨_, ?_, reads_atStatement named params⟩
      rw [endItem, List.reverse_reverse, toOption_bind]
      cases (writeValue commas params).toOption with
      | none => rfl
      | some text => rfl
  | rule list plain => exact ⟨none, rfl, reads_none plain fun same => absurd same list⟩
  | @declaration _ property name body named =>
      refine ⟨_, ?_, reads_declaration named stop
        (property.text ++ Tree.textAll body ++ ending) body⟩
      rw [endItem, List.reverse_reverse, toOption_bind]
      cases (readDeclaration commas stop (property.text ++ Tree.textAll body ++ ending) name
          body).toOption with
      | none => rfl
      | some d => rfl
  | stray plain nameless =>
      refine ⟨none, rfl, reads_none plain fun _ => ?_⟩
      rintro t ⟨⟩
      exact nameless

section Blocks

variable {children : List Tree} {inner : Option (List Node)}

theorem reads_atBlock {keyword : Tree} {name : Text} (named : keyword.token = .atKeyword name)
    (params : List Tree)
    (inside : ∀ nodes, inner.map withoutComments = some nodes ↔
      ItemsRead commas (blockList name) (items (blockList name) children) nodes) :
    Reads commas kind ⟨keyword :: params, some children⟩
      ((writeValue commas params).toOption.bind fun text =>
        inner.map (Node.atBlock name text)) := by
  intro n
  simp only [Option.map_eq_some_iff, Option.bind_eq_some_iff, toOption_eq_some]
  constructor
  · rintro ⟨_, ⟨text, spelled, nodes, found, rfl⟩, rfl⟩
    exact .atBlock named spelled ((inside _).mp (by rw [found]; rfl))
  · intro read
    cases read with
    | atBlock other spelled read =>
        obtain rfl := Token.atKeyword.inj (named.symm.trans other)
        obtain ⟨nodes, found, rfl⟩ := Option.map_eq_some_iff.mp ((inside _).mpr read)
        exact ⟨_, ⟨_, spelled, nodes, found, rfl⟩, rfl⟩
    | rule list plain =>
        rw [isAtRule_of_token named] at plain
        cases plain

theorem reads_rule (list : kind ≠ .declarations) (plain : isAtRule front = false)
    (inside : ∀ nodes, inner.map withoutComments = some nodes ↔
      ItemsRead commas .declarations (items .declarations children) nodes) :
    Reads commas kind ⟨front, some children⟩
      ((writeValue commas front).toOption.bind fun text => inner.map (Node.rule text)) := by
  intro n
  simp only [Option.map_eq_some_iff, Option.bind_eq_some_iff, toOption_eq_some]
  constructor
  · rintro ⟨_, ⟨text, spelled, nodes, found, rfl⟩, rfl⟩
    exact .rule list plain spelled ((inside _).mp (by rw [found]; rfl))
  · intro read
    cases read with
    | atBlock named =>
        rw [isAtRule_of_token named] at plain
        cases plain
    | rule _ _ spelled read =>
        obtain ⟨nodes, found, rfl⟩ := Option.map_eq_some_iff.mp ((inside _).mpr read)
        exact ⟨_, ⟨_, spelled, nodes, found, rfl⟩, rfl⟩

end Blocks

/-!
### One tree
-/

/-- What a tree does to the item that it stands behind: the item goes on with it, or it
completes the item. -/
inductive Turn (commas : Bool) (kind : ItemList) (fresh : Bool) (front : List Tree)
    (state : Reading) (t : Tree) : Prop
  | goes {fresh' : Bool} {front' : List Tree} {after : Reading} {done : List Node}
      (step : readTree commas kind state t = .ok (after, done))
      (quiet : withoutComments done = []) (stands : Stands kind fresh' front' after)
      (cuts : ∀ rest, itemsFrom kind fresh front (t :: rest) = itemsFrom kind fresh' front' rest)
  | completes {item : Item} {outcome : Option Node}
      (step : (readTree commas kind state t).toOption = outcome.map fun n => (.next, [n]))
      (reads : Reads commas kind item outcome)
      (cuts : ∀ rest,
        itemsFrom kind fresh front (t :: rest) = item :: itemsFrom kind false [] rest)

/-- An item goes on with a tree that ends no item. -/
theorem turn_concat {t : Tree} (stands : Stands kind fresh front state)
    (step : readTree commas kind state t = .ok (state.push kind t, []))
    (cuts : ∀ rest, cut kind front (t :: rest) = cut kind (front ++ [t]) rest) :
    Turn commas kind fresh front state t :=
  .goes step rfl (stands.concat t) fun rest => itemsFrom_congr (cuts rest)

theorem isBlank_of_ne {t : Token} (space : t ≠ .whitespace)
    (comment : ∀ text, t = .comment text → False) : t.isBlank = false := by
  cases t with
  | whitespace => exact absurd rfl space
  | comment text => exact (comment text rfl).elim
  | _ => rfl

/-- What is skipped between items belongs to none of them. -/
theorem separatesItems_eq {kind : ItemList} {t : Token} (dark : t.isBlank = false) :
    separatesItems kind t = isSkipped kind t := by
  cases t with
  | whitespace => cases dark
  | comment text => cases dark
  | _ => cases kind <;> rfl

/-- Between items a semicolon ends none of them: where it could, it is skipped. -/
theorem endsAtSemicolon_nil {t : Token} (dark : t.isBlank = false)
    (kept : separatesItems kind t = false) :
    (t == .semicolon && endsAtSemicolon kind []) = false := by
  rw [separatesItems_eq dark] at kept
  cases kind with
  | declarations => rw [show (t == .semicolon) = false from kept, Bool.false_and]
  | _ => exact Bool.and_false _

theorem endsAtSemicolon_of_named {keyword : Tree} {name : Text}
    (named : keyword.token = .atKeyword name) (params : List Tree) :
    endsAtSemicolon kind (keyword :: params) = true := by
  rw [endsAtSemicolon, isAtRule_of_token named, Bool.true_or]

/-- The encoding of the sheet is an at-rule. -/
theorem endsAtSemicolon_of_encoding {keyword : Tree} {params : List Tree}
    {block : Option (List Tree)} (named : Item.isEncoding ⟨keyword :: params, block⟩ = true) :
    endsAtSemicolon kind (keyword :: params) = true := by
  rw [Item.isEncoding, List.head?_cons, Option.any_some] at named
  split at named
  next name found => exact endsAtSemicolon_of_named found params
  next => cases named

/-- A semicolon goes on with a rule. -/
theorem endsAtSemicolon_of_plain (list : kind ≠ .declarations) (plain : isAtRule front = false) :
    endsAtSemicolon kind front = false := by
  rw [endsAtSemicolon, plain]
  simpa using list

/-- A lexeme before an item is skipped, or begins the item. -/
theorem turn_leaf_between {keeps : Bool} (sheet : fresh = true → kind = .sheet)
    (lexeme : Lexeme) : Turn commas kind fresh [] (.between keeps fresh) (.leaf lexeme) := by
  have skip (blank : separatesItems kind lexeme.token = true) (rest : List Tree) :
      itemsFrom kind fresh [] (.leaf lexeme :: rest) = itemsFrom kind fresh [] rest := by
    apply itemsFrom_congr
    rw [cut, blank]
    rfl
  by_cases space : lexeme.token = .whitespace
  · refine .goes (readLeaf.eq_1 commas kind lexeme keeps fresh space) rfl (.between sheet)
      (skip ?_)
    rw [space]
    rfl
  by_cases comment : ∃ text, lexeme.token = .comment text
  · obtain ⟨text, comment⟩ := comment
    refine .goes (readLeaf.eq_2 commas kind lexeme keeps fresh text comment) ?_ (.between sheet)
      (skip ?_)
    · cases keeps <;> rfl
    · rw [comment]
      rfl
  have other : ∀ text, lexeme.token = .comment text → False :=
    fun text same => comment ⟨text, same⟩
  have step := readLeaf.eq_3 commas kind lexeme keeps fresh space other
  have dark := isBlank_of_ne space other
  rw [← separatesItems_eq dark] at step
  by_cases skipped : separatesItems kind lexeme.token = true
  · rw [if_pos skipped] at step
    exact .goes step rfl (.between sheet) (skip skipped)
  · rw [if_neg skipped] at step
    rw [Bool.not_eq_true] at skipped
    refine turn_concat (.between sheet) step fun rest => ?_
    simp [cut, skipped, endsAtSemicolon_nil dark skipped]

/-- A lexeme in an item is a part of it, or the semicolon at its end. -/
theorem turn_leaf_inside (stands : Stands kind fresh front state) (begun : front ≠ [])
    (lexeme : Lexeme) : Turn commas kind fresh front state (.leaf lexeme) := by
  have filled : front.isEmpty = false := by simpa using begun
  have inside := stands.isInside begun
  by_cases semicolon : lexeme.token = .semicolon
  · -- a semicolon ends all items but rules
    have ends (all : endsAtSemicolon kind front = true) (rest : List Tree) :
        cut kind front (.leaf lexeme :: rest) = ⟨front, none⟩ :: cut kind [] rest := by
      simp [cut, filled, semicolon, all]
    have complete (all : endsAtSemicolon kind front = true) (counts : state ≠ .encoding)
        (other : ∀ selector, state ≠ .rule selector) :
        Turn commas kind fresh front state (.leaf lexeme) := by
      obtain ⟨outcome, ended, reads⟩ := reads_endItem commas stands begun counts
        lexeme.start lexeme.text
      refine .completes ?_ reads fun rest =>
        itemsFrom_cons (ends all rest) (stands.isEncoding counts none)
      rw [readTree, readLeaf.eq_6 commas kind lexeme state inside counts other semicolon,
        toOption_bind, ended]
      cases outcome with
      | none => rfl
      | some n => rfl
    cases stands with
    | between => exact absurd rfl begun
    | encoding named =>
        exact .goes (readLeaf.eq_4 commas .sheet lexeme semicolon) rfl stands_next
          fun rest => itemsFrom_encoding (ends (endsAtSemicolon_of_encoding named) rest) named
    | atRule named => exact complete (endsAtSemicolon_of_named named _) (by simp) (by simp)
    | rule list plain =>
        refine turn_concat (.rule list plain) (readLeaf.eq_5 commas kind lexeme _ semicolon) ?_
        intro rest
        simp [cut, endsAtSemicolon_of_plain list plain]
    | declaration => exact complete (Bool.or_true _) (by simp) (by simp)
    | stray => exact complete (Bool.or_true _) (by simp) (by simp)
  · refine turn_concat stands (readLeaf_part commas kind inside semicolon) ?_
    intro rest
    simp [cut, filled, semicolon]

/-- Where a block ends an item, the item is the encoding of the sheet, an at-rule or a rule. -/
theorem blockRole_of_ends (stands : Stands kind fresh front state)
    (ends : endsWithBlock kind front = true) :
    (kind = .sheet ∧ fresh = true ∧ Item.isEncoding ⟨front, none⟩ = true ∧
        blockRole kind state .curly = .skipped) ∨
      state ≠ .encoding ∧
        ((∃ keyword name params, front = keyword :: params ∧ keyword.token = .atKeyword name ∧
            blockRole kind state .curly = .atRule name params) ∨
          kind ≠ .declarations ∧ isAtRule front = false ∧
            blockRole kind state .curly = .rule front) := by
  cases stands with
  | between =>
      have list : kind ≠ .declarations := by simpa [endsWithBlock, isAtRule] using ends
      refine .inr ⟨by simp, .inr ⟨list, rfl, ?_⟩⟩
      rw [blockRole, if_neg list]
  | encoding named => exact .inl ⟨rfl, rfl, named, rfl⟩
  | @atRule _ _ keyword name params named =>
      refine .inr ⟨by simp, .inl ⟨keyword, name, params, rfl, named, ?_⟩⟩
      rw [blockRole, List.reverse_reverse]
  | rule list plain =>
      refine .inr ⟨by simp, .inr ⟨list, plain, ?_⟩⟩
      rw [blockRole, List.reverse_reverse]
  | declaration named =>
      rw [endsWithBlock, isAtRule_of_ne (by simp [named])] at ends
      cases ends
  | stray plain =>
      rw [endsWithBlock, plain] at ends
      cases ends

/-- Any other block is a part of the item. -/
theorem blockRole_of_not_ends {bracket : Bracket} (stands : Stands kind fresh front state)
    (goes : ¬(bracket == .curly && endsWithBlock kind front) = true) :
    blockRole kind state bracket = .part := by
  cases bracket with
  | round => rfl
  | square => rfl
  | curly =>
      have goes : ¬endsWithBlock kind front = true := by simpa using goes
      cases stands with
      | between =>
          have list : kind = .declarations := by simpa [endsWithBlock, isAtRule] using goes
          rw [blockRole, if_pos list]
      | encoding => exact absurd (Bool.or_true _) goes
      | atRule named =>
          rw [endsWithBlock, isAtRule_of_token named] at goes
          exact absurd rfl goes
      | rule list =>
          have other : (kind != .declarations) = true := by simpa using list
          rw [endsWithBlock, other] at goes
          exact absurd (Bool.or_true _) goes
      | declaration => rfl
      | stray => rfl

/-- A block is a part of an item, or ends it. -/
theorem turn_block (stands : Stands kind fresh front state) (bracket : Bracket) (opener : Lexeme)
    (children : List Tree) (stop : Position) (closed : Bool)
    (inside : ∀ list nodes,
      (readItems commas list stop (.start list) children).toOption.map withoutComments =
        some nodes ↔ ItemsRead commas list (items list children) nodes) :
    Turn commas kind fresh front state (.block bracket opener children stop closed) := by
  by_cases ends : (bracket == .curly && endsWithBlock kind front) = true
  · have cuts (rest : List Tree) :
        cut kind front (.block bracket opener children stop closed :: rest) =
          ⟨front, some children⟩ :: cut kind [] rest := by
      rw [cut, if_pos ends]
    rw [Bool.and_eq_true] at ends
    obtain ⟨curly, ends⟩ := ends
    obtain rfl : bracket = .curly := eq_of_beq curly
    rcases blockRole_of_ends stands ends with ⟨rfl, rfl, named, role⟩ | ⟨counts, known⟩
    · have step : readTree commas .sheet state (.block .curly opener children stop closed) =
          .ok (.between false false, []) := by
        rw [readTree, role]
      exact .goes step rfl stands_next fun rest => itemsFrom_encoding (cuts rest) named
    · have first (rest : List Tree) :=
        itemsFrom_cons (cuts rest) (stands.isEncoding counts (some children))
      rcases known with ⟨keyword, name, params, rfl, named, role⟩ | ⟨list, plain, role⟩
      · exact .completes (toOption_readTree_atBlock role opener children stop closed)
          (reads_atBlock named params (inside (blockList name))) first
      · exact .completes (toOption_readTree_rule role opener children stop closed)
          (reads_rule list plain (inside .declarations)) first
  · have role := blockRole_of_not_ends stands ends
    refine turn_concat stands ?_ ?_
    · rw [readTree, role]
    · intro rest
      rw [cut, if_neg ends]

/-!
### All trees
-/

theorem withoutComments_append (front back : List Node) :
    withoutComments (front ++ back) = withoutComments front ++ withoutComments back := by
  induction front with
  | nil => rfl
  | cons n rest ih =>
      rw [List.cons_append, withoutComments, withoutComments, ih]
      split
      next => rfl
      next => rfl

/-- What is read of an item is no comment. -/
theorem ItemReads.isComment {item : Item} {n : Node} (read : ItemReads commas kind item n) :
    n.isComment = false := by
  cases read with
  | atStatement => rfl
  | atBlock => rfl
  | rule => rfl
  | declaration => rfl

/-- Of no items nothing is read. -/
theorem itemsRead_nil (nodes : List Node) :
    (some []).map withoutComments = some nodes ↔ ItemsRead commas kind [] nodes := by
  constructor
  · rintro ⟨⟩
    exact .nil
  · rintro ⟨⟩
    rfl

/-- An item and the items behind it are read one after the other. -/
theorem itemsRead_cons {item : Item} {rest : List Item} {outcome : Option Node}
    {more : Option (List Node)} (reads : Reads commas kind item outcome)
    (others : ∀ nodes, more.map withoutComments = some nodes ↔ ItemsRead commas kind rest nodes)
    {nodes : List Node} :
    (do
        let n ← outcome
        let later ← more
        return n :: later).map withoutComments = some nodes ↔
      ItemsRead commas kind (item :: rest) nodes := by
  have apart {n : Node} (member : outcome = some n) (later : List Node) :
      withoutComments (n :: later) = n.withoutComments :: withoutComments later := by
    have read := (reads n.withoutComments).mp (by rw [member]; rfl)
    have dark := read.isComment
    rw [isComment_withoutComments] at dark
    rw [withoutComments, dark]
    rfl
  constructor
  · intro all
    rw [Option.map_eq_some_iff] at all
    obtain ⟨_, found, rfl⟩ := all
    obtain ⟨n, first, found⟩ := Option.bind_eq_some_iff.mp found
    obtain ⟨later, behind, same⟩ := Option.bind_eq_some_iff.mp found
    obtain rfl := Option.some.inj same
    rw [apart first]
    exact .cons ((reads _).mp (by rw [first]; rfl)) ((others _).mp (by rw [behind]; rfl))
  · rintro (_ | ⟨read, further⟩)
    obtain ⟨n, first, rfl⟩ := Option.map_eq_some_iff.mp ((reads _).mpr read)
    obtain ⟨later, behind, rfl⟩ := Option.map_eq_some_iff.mp ((others _).mpr further)
    rw [first, behind, ← apart first]
    rfl

/-- A tree of which only comments are read changes the state alone. -/
theorem readItems_quiet {stop : Position} {after : Reading} {t : Tree} {done : List Node}
    (step : readTree commas kind state t = .ok (after, done))
    (quiet : withoutComments done = []) (rest : List Tree) :
    (readItems commas kind stop state (t :: rest)).toOption.map withoutComments =
      (readItems commas kind stop after rest).toOption.map withoutComments := by
  rw [readItems, step, toOption_bind]
  show ((readItems commas kind stop after rest).bind fun nodes =>
    .ok (done ++ nodes)).toOption.map withoutComments = _
  cases readItems commas kind stop after rest with
  | error e => rfl
  | ok nodes =>
      show some (withoutComments (done ++ nodes)) = some (withoutComments nodes)
      rw [withoutComments_append, quiet, List.nil_append]

/-- The end of a list ends the item that stands there. -/
theorem readItems_end (stands : Stands kind fresh front state) (stop : Position)
    (nodes : List Node) :
    (readItems commas kind stop state []).toOption.map withoutComments = some nodes ↔
      ItemsRead commas kind (itemsFrom kind fresh front []) nodes := by
  rw [readItems]
  by_cases begun : front = []
  · subst begun
    cases stands with
    | between => exact itemsRead_nil nodes
  have last : cut kind front [] = ⟨front, none⟩ :: cut kind [] [] := by simp [cut, begun]
  by_cases encoding : state = .encoding
  · subst encoding
    cases stands with
    | encoding named =>
        rw [itemsFrom_encoding last named]
        exact itemsRead_nil nodes
  · obtain ⟨outcome, ended, reads⟩ := reads_endItem commas stands begun encoding stop []
    have alone : (outcome.map fun n => [n]) = (do
        let n ← outcome
        let later ← some []
        return n :: later) := by
      cases outcome with
      | none => rfl
      | some n => rfl
    rw [itemsFrom_cons last (stands.isEncoding encoding none), ended, alone]
    exact itemsRead_cons reads itemsRead_nil

/-- A list starts between items. -/
theorem stands_start (kind : ItemList) :
    Stands kind (kind == .sheet) [] (Reading.start kind) := by
  have same : decide (kind = .sheet) = (kind == .sheet) := rfl
  rw [Reading.start, same]
  exact .between eq_of_beq

mutual

theorem turn_readTree {kind : ItemList} {fresh : Bool} {front : List Tree} {state : Reading}
    (stands : Stands kind fresh front state) (t : Tree) :
    Turn commas kind fresh front state t := by
  cases t with
  | leaf lexeme =>
      by_cases begun : front = []
      · subst begun
        cases stands with
        | between sheet => exact turn_leaf_between sheet lexeme
      · exact turn_leaf_inside stands begun lexeme
  | block bracket opener children stop closed =>
      exact turn_block stands bracket opener children stop closed fun list nodes =>
        readItems_iff stop (stands_start list) children nodes

/-- The trees of a list are read as the items that they are cut into. -/
theorem readItems_iff {kind : ItemList} {fresh : Bool} {front : List Tree} {state : Reading}
    (stop : Position) (stands : Stands kind fresh front state) (ts : List Tree)
    (nodes : List Node) :
    (readItems commas kind stop state ts).toOption.map withoutComments = some nodes ↔
      ItemsRead commas kind (itemsFrom kind fresh front ts) nodes := by
  cases ts with
  | nil => exact readItems_end stands stop nodes
  | cons t rest =>
      cases turn_readTree stands t with
      | goes step quiet further cuts =>
          rw [cuts, readItems_quiet step quiet]
          exact readItems_iff stop further rest nodes
      | completes step reads cuts =>
          have start : Stands kind false [] .next := stands_next
          have later (nodes : List Node) := readItems_iff stop start rest nodes
          rw [cuts, readItems_item step]
          exact itemsRead_cons reads later

end

end Run

/-!
### The result
-/

/-- A sheet is read as the items that it is cut into. -/
theorem parse_iff_itemsRead {commas : Bool} {source : Text} {nodes : List Node} :
    (parse commas source).toOption.map withoutComments = some nodes ↔
      ItemsRead commas .sheet (items .sheet (trees (dropMark source))) nodes :=
  readItems_iff _ (stands_start .sheet) _ nodes

/-- The only item of a list is a style rule: it is well formed if its selector is whole and all
items of its block are well formed. -/
theorem accepted_styleRule {ts selector children : List Tree}
    (single : items .sheet ts = [⟨selector, some children⟩]) (plain : isAtRule selector = false) :
    Accepted .sheet ts ↔ Whole selector ∧ Accepted .declarations children := by
  rw [Accepted, single, List.forall_mem_singleton]
  constructor
  · intro formed
    cases formed with
    | atBlock named =>
        rw [isAtRule_of_token named] at plain
        cases plain
    | rule _ _ whole inside => exact ⟨whole, inside⟩
  · rintro ⟨whole, inside⟩
    exact .rule nofun plain whole inside

/-- A sheet can be read exactly when each of its items is well formed, down to the items of all
its blocks.  The items are then read one by one.  For a sheet of one style rule this says which
blocks a rule may have, and what is read of them. -/
theorem parse_accepts_wellFormed (commas : Bool) (source : Text) :
    ((∃ nodes, parse commas source = .ok nodes) ↔
        Accepted .sheet (trees (dropMark source))) ∧
      (∀ nodes, parse commas source = .ok nodes →
        ItemsRead commas .sheet (items .sheet (trees (dropMark source))) (withoutComments nodes)) ∧
      ∀ selector children,
        items .sheet (trees (dropMark source)) = [⟨selector, some children⟩] →
        isAtRule selector = false → Whole selector →
          ((∃ nodes, parse commas source = .ok nodes) ↔
            ∀ item ∈ items .declarations children, WellFormed .declarations item) ∧
          ∀ nodes, parse commas source = .ok nodes → ∃ text inner,
            writeValue commas selector = .ok text ∧ withoutComments nodes = [.rule text inner] ∧
              ItemsRead commas .declarations (items .declarations children) inner := by
  have reads (nodes : List Node) (read : parse commas source = .ok nodes) :
      ItemsRead commas .sheet (items .sheet (trees (dropMark source))) (withoutComments nodes) :=
    parse_iff_itemsRead.mp (by rw [read]; rfl)
  have accepts : (∃ nodes, parse commas source = .ok nodes) ↔
      Accepted .sheet (trees (dropMark source)) := by
    rw [← exists_itemsRead_iff commas (holdsAll_trees fun _ _ => trivial)]
    constructor
    · rintro ⟨nodes, read⟩
      exact ⟨_, reads nodes read⟩
    · rintro ⟨_, read⟩
      obtain ⟨nodes, found, rfl⟩ := Option.map_eq_some_iff.mp (parse_iff_itemsRead.mpr read)
      exact ⟨nodes, toOption_eq_some.mp found⟩
  refine ⟨accepts, reads, fun selector children single plain whole => ⟨?_, ?_⟩⟩
  · rw [accepts, accepted_styleRule single plain]
    exact and_iff_right whole
  · intro nodes read
    have found := reads nodes read
    rw [single] at found
    generalize withoutComments nodes = shown at found
    cases found with
    | cons first more =>
        cases more
        cases first with
        | atBlock named =>
            rw [isAtRule_of_token named] at plain
            cases plain
        | rule _ _ spelled inside => exact ⟨_, _, spelled, rfl, inside⟩

/-- A rule with a semicolon too many, comments, an important declaration, at-rules that end with
and without a block, and a value that holds semicolons and an exclamation mark in brackets. -/
def wellFormedRule : Text :=
  "a\x7b;/**/color/**/: red ! IMPORTANT /**/;@x;@media y\x7b\x7d top:f(;!) \x7b;\x7d \x7d".toList

/-- Rules with an item that has no colon, and with a word behind an exclamation mark. -/
def malformedRules : List Text :=
  ["a\x7btop:0;color red\x7d".toList, "a\x7btop:0!important x\x7d".toList]

/-- The items of the first rule are well formed and read in order; the others cannot be read. -/
theorem parse_accepts_wellFormed_wellFormedRule :
    (∃ selector children, items .sheet (trees wellFormedRule) = [⟨selector, some children⟩] ∧
      (∀ item ∈ items .declarations children, WellFormed .declarations item) ∧
      ItemsRead true .declarations (items .declarations children)
        [.declaration ⟨"color".toList, "red".toList, true⟩, .atStatement "x".toList [],
          .atBlock "media".toList "y".toList [],
          .declaration ⟨"top".toList, "f(;!) \x7b;\x7d".toList, false⟩]) ∧
      ∀ s ∈ malformedRules, ¬Accepted .sheet (trees s) := by
  constructor
  · have shape : (items .sheet (trees wellFormedRule)).map
        (fun item => (isAtRule item.front, item.block.isSome)) = [(false, true)] := by
      decide +kernel
    have whole : ∀ item ∈ items .sheet (trees wellFormedRule), Whole item.front := by
      unfold Whole
      decide +kernel
    have read : (parse true wellFormedRule).toOption = some [.rule "a".toList
        [.declaration ⟨"color".toList, "red".toList, true⟩, .atStatement "x".toList [],
          .atBlock "media".toList "y".toList [],
          .declaration ⟨"top".toList, "f(;!) \x7b;\x7d".toList, false⟩]] := by
      decide +kernel
    obtain ⟨⟨selector, block⟩, single, known⟩ := List.map_eq_singleton_iff.mp shape
    obtain ⟨plain, filled⟩ := Prod.mk.inj known
    obtain ⟨children, rfl⟩ := Option.isSome_iff_exists.mp filled
    obtain ⟨-, -, blocks⟩ := parse_accepts_wellFormed true wellFormedRule
    obtain ⟨accepts, reads⟩ := blocks selector children single plain
      (whole _ (by rw [single]; exact List.mem_singleton_self _))
    obtain ⟨text, inner, -, same, inside⟩ := reads _ (toOption_eq_some.mp read)
    refine ⟨selector, children, single, accepts.mp ⟨_, toOption_eq_some.mp read⟩, ?_⟩
    obtain ⟨-, rfl⟩ := Node.rule.inj (List.singleton_inj.mp same)
    exact inside
  · have fails : ∀ s ∈ malformedRules, dropMark s = s ∧ (parse true s).toOption = none := by
      decide +kernel
    intro s member accepted
    obtain ⟨same, fails⟩ := fails s member
    obtain ⟨accepts, -, -⟩ := parse_accepts_wellFormed true s
    rw [same] at accepts
    obtain ⟨nodes, read⟩ := accepts.mpr accepted
    rw [read] at fails
    cases fails

end Swatch
