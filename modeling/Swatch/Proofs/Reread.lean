/-
Module: Swatch.Proofs.Reread
Purpose: A printed style sheet is read as itself, with its texts spelled anew.
Main exports:
  startsEncoding, FramedSheet, readItems_layoutAll, toOption_parse_print, parse_print
-/
import Swatch.Proofs.Layout
import Swatch.Proofs.Reading
import Swatch.Proofs.Spelling

namespace Swatch

/-!
### Space that is not written
-/

/-- A blank tree only makes a space due. -/
theorem writeTrees_blank {commas nested : Bool} {t : Tree} (blank : t.isBlank = true)
    (gap begun : Bool) (rest : List Tree) :
    writeTrees commas nested gap begun (t :: rest) =
      writeTrees commas nested (gap || begun || (nested && !commas)) begun rest := by
  rw [writeTrees, if_pos blank]

/-- Blanks are not written where a space is due, or will be with the first of them. -/
theorem writeTrees_blank_append {commas nested : Bool} {blanks : List Tree}
    (blank : ∀ t ∈ blanks, t.isBlank = true) {gap begun : Bool}
    (due : (gap || begun || (nested && !commas)) = gap) (ts : List Tree) :
    writeTrees commas nested gap begun (blanks ++ ts) = writeTrees commas nested gap begun ts := by
  induction blanks with
  | nil => rfl
  | cons t rest ih =>
      obtain ⟨first, others⟩ := List.forall_mem_cons.mp blank
      rw [List.cons_append, writeTrees_blank first, due, ih others]

/-- A comma brings its own space, so it does not matter whether one is due before it, or behind
the last tree. -/
theorem writeTrees_comma_gap {nested : Bool} {ts : List Tree}
    (next : ∀ t ∈ ts.head?, t.isComma = true) (gap gap' begun begun' : Bool) :
    writeTrees true nested gap begun ts = writeTrees true nested gap' begun' ts := by
  cases ts with
  | nil => simp [writeTrees]
  | cons t rest =>
      have comma : t.isComma = true := next t rfl
      have dark : t.isBlank = false := by
        have token : t.token = .comma := eq_of_beq comma
        rw [Tree.isBlank, token]
        rfl
      simp [writeTrees, dark, comma]

/-- Blanks before a comma, or behind the last tree, are not written. -/
theorem writeTrees_blank_comma {nested : Bool} {blanks ts : List Tree}
    (blank : ∀ t ∈ blanks, t.isBlank = true) (next : ∀ t ∈ ts.head?, t.isComma = true)
    (gap gap' begun begun' : Bool) :
    writeTrees true nested gap begun (blanks ++ ts) = writeTrees true nested gap' begun' ts := by
  induction blanks generalizing gap with
  | nil => exact writeTrees_comma_gap next gap gap' begun begun'
  | cons t rest ih =>
      obtain ⟨first, others⟩ := List.forall_mem_cons.mp blank
      rw [List.cons_append, writeTrees_blank first, ih others]

/-- Blanks at the end of trees are not written unless a block keeps the space at its end. -/
theorem writeTrees_append_blank {commas nested : Bool} (loose : (nested && !commas) = false)
    {blanks : List Tree} (blank : ∀ t ∈ blanks, t.isBlank = true) (gap begun : Bool)
    (ts : List Tree) :
    writeTrees commas nested gap begun (ts ++ blanks) = writeTrees commas nested gap begun ts := by
  induction ts generalizing gap begun with
  | nil =>
      induction blanks generalizing gap with
      | nil => rfl
      | cons t rest ih =>
          obtain ⟨first, others⟩ := List.forall_mem_cons.mp blank
          rw [List.nil_append, writeTrees_blank first, ← List.nil_append rest, ih others]
          simp [writeTrees, Bool.and_assoc, loose]
  | cons t rest ih =>
      rw [List.cons_append, writeTrees, writeTrees]
      simp only [ih]

theorem writeValue_cons_space (commas : Bool) (ts : List Tree) :
    writeValue commas (space :: ts) = writeValue commas ts := by
  have blank : space.isBlank = true := rfl
  rw [writeValue, writeTrees_blank blank]
  rfl

theorem toOption_writeValue_shape (commas : Bool) (w : Text) :
    (writeValue commas (shape w)).toOption = respelled commas w :=
  toOption_writeTrees_bareAll commas false false false (trees w)

/-- What holds of the space and of the trees of a text holds with the space around them. -/
theorem forall_mem_spaced {p : Tree → Prop} {w : Text} (blank : p space)
    (whole : ∀ t ∈ shape w, p t) : ∀ t ∈ space :: spaced w, p t := by
  rw [List.forall_mem_cons, spaced]
  refine ⟨blank, ?_⟩
  split
  next => exact List.forall_mem_nil p
  next => exact List.forall_mem_append.mpr ⟨whole, List.forall_mem_singleton.mpr blank⟩

theorem toOption_writeValue_spaced (commas : Bool) (w : Text) :
    (writeValue commas (spaced w)).toOption = respelled commas w := by
  rw [← toOption_writeValue_shape, spaced]
  split
  next empty =>
    subst empty
    rw [shape_nil]
  next =>
    have blank : ∀ t ∈ [space], t.isBlank = true := List.forall_mem_singleton.mpr rfl
    rw [writeValue, writeTrees_append_blank rfl blank, writeValue]

/-!
### Reading the parts of an item
-/

section Parts

variable {commas : Bool} {kind : ItemList} {stop : Position}

/-- A tree that completes no item only changes the state. -/
theorem readItems_step {state after : Reading} {t : Tree} (rest : List Tree)
    (step : readTree commas kind state t = .ok (after, [])) :
    readItems commas kind stop state (t :: rest) = readItems commas kind stop after rest := by
  rw [readItems, step]
  cases inner : readItems commas kind stop after rest with
  | ok nodes => simp [bind, Except.bind, inner]; rfl
  | error e => simp [bind, Except.bind, inner]

/-- A tree that completes an item adds it in front. -/
theorem readItems_item {state after : Reading} {t : Tree} {item : Option Node}
    (step : (readTree commas kind state t).toOption = item.map fun n => (after, [n]))
    (rest : List Tree) :
    (readItems commas kind stop state (t :: rest)).toOption = do
      let n ← item
      let nodes ← (readItems commas kind stop after rest).toOption
      return n :: nodes := by
  rw [readItems, toOption_bind, step]
  cases item with
  | none => rfl
  | some n =>
      simp only [Option.map_some, Option.bind_some, toOption_bind]
      rfl

/-- Space between items is skipped. -/
theorem readItems_space (keeps fresh : Bool) (rest : List Tree) :
    readItems commas kind stop (.between keeps fresh) (space :: rest) =
      readItems commas kind stop (.between keeps fresh) rest :=
  readItems_step rest (readLeaf.eq_1 commas kind Token.whitespace.bare keeps fresh rfl)

/-- Trees each of which becomes a part of the item that is read become its parts in order. -/
theorem readItems_parts (state : List Tree → Reading) {ts : List Tree}
    (step : ∀ t ∈ ts, ∀ parts,
      readTree commas kind (state parts) t = .ok (state (t :: parts), []))
    (parts rest : List Tree) :
    readItems commas kind stop (state parts) (ts ++ rest) =
      readItems commas kind stop (state (ts.reverse ++ parts)) rest := by
  induction ts generalizing parts with
  | nil => rfl
  | cons t ts ih =>
      rw [List.cons_append, readItems_step _ (step t List.mem_cons_self parts),
        ih fun u member => step u (List.mem_cons_of_mem t member)]
      simp

/-- The trees of a selector become parts of the rule. -/
theorem readItems_selector {ts : List Tree} (parts : ∀ t ∈ ts, t.isBraces = false)
    (selector rest : List Tree) :
    readItems commas kind stop (.rule selector) (ts ++ rest) =
      readItems commas kind stop (.rule (ts.reverse ++ selector)) rest := by
  refine readItems_parts .rule (fun t member selector => ?_) selector rest
  cases t with
  | leaf lexeme =>
      by_cases semicolon : lexeme.token = .semicolon
      · exact readLeaf.eq_5 commas kind lexeme selector semicolon
      · exact readLeaf_part commas kind (by rintro _ _ ⟨⟩) semicolon
  | block bracket opener children last closed =>
      have round := parts _ member
      cases bracket with
      | round => rfl
      | square => rfl
      | curly => cases round

/-- The trees of parameters become parts of the at-rule. -/
theorem readItems_params {ts : List Tree}
    (parts : ∀ t ∈ ts, t.isBraces = false ∧ t.token ≠ .semicolon) (name : Text)
    (params rest : List Tree) :
    readItems commas kind stop (.atRule name params) (ts ++ rest) =
      readItems commas kind stop (.atRule name (ts.reverse ++ params)) rest := by
  refine readItems_parts (.atRule name) (fun t member params => ?_) params rest
  obtain ⟨round, part⟩ := parts t member
  cases t with
  | leaf lexeme => exact readLeaf_part commas kind nofun part
  | block bracket opener children last closed =>
      cases bracket with
      | round => rfl
      | square => rfl
      | curly => cases round

/-- The trees of a value become parts of the declaration. -/
theorem readItems_body {ts : List Tree} (parts : ∀ t ∈ ts, t.token ≠ .semicolon)
    (property : Tree) (name : Text) (body rest : List Tree) :
    readItems commas kind stop (.declaration property name body) (ts ++ rest) =
      readItems commas kind stop (.declaration property name (ts.reverse ++ body)) rest := by
  refine readItems_parts (.declaration property name) (fun t member body => ?_) body rest
  have part := parts t member
  cases t with
  | leaf lexeme => exact readLeaf_part commas kind nofun part
  | block bracket opener children last closed =>
      cases bracket with
      | round => rfl
      | square => rfl
      | curly => rfl

end Parts

/-!
### Reading whole items
-/

/-- Whether the first item, comments apart, is read as the encoding of the sheet. -/
def startsEncoding : List Node → Bool
  | .comment _ :: rest => startsEncoding rest
  | .atBlock name _ _ :: _ => lowercase name == "charset".toList
  | .atStatement name _ :: _ => lowercase name == "charset".toList
  | _ => false

/-- Where reading stands behind an item. -/
def behind (fresh : Bool) (n : Node) : Reading :=
  if n.isComment then .between true fresh else .next

section Items

variable {commas : Bool} {kind : ItemList} {stop : Position} {fresh : Bool}

theorem begin_rule (rules : kind ≠ .declarations) {t : Tree}
    (begins : t.beginsRule kind = true) : Reading.begin kind fresh t = .rule [t] := by
  rw [Reading.begin]
  split
  next name keyword => simp [Tree.beginsRule, keyword] at begins
  next => rw [if_neg rules]
  next => rw [if_neg rules]

/-- The first tree of a selector begins a rule. -/
theorem readTree_begin_rule (rules : kind ≠ .declarations) {t : Tree}
    (begins : t.beginsRule kind = true) (round : t.isBraces = false) :
    readTree commas kind (.between true fresh) t = .ok (.rule [t], []) := by
  have begun : Reading.begin kind fresh t = .rule [t] := begin_rule rules begins
  cases t with
  | leaf lexeme =>
      have token : Tree.token (.leaf lexeme) = lexeme.token := rfl
      have dark : lexeme.token = .whitespace → False := by
        intro blank
        simp [Tree.beginsRule, token, blank] at begins
      have plain : ∀ text, lexeme.token = .comment text → False := by
        intro text comment
        simp [Tree.beginsRule, token, comment] at begins
      have kept : isSkipped kind lexeme.token = false := by
        rw [Tree.beginsRule, token] at begins
        split at begins
        next => cases begins
        next => cases begins
        next => cases begins
        next => simpa using begins
      rw [readTree, readLeaf.eq_3 commas kind lexeme true fresh dark plain, kept]
      simp only [Reading.push, begun]
      rfl
  | block bracket opener children last closed =>
      cases bracket with
      | round => exact congrArg (fun state => Except.ok (state, [])) begun
      | square => exact congrArg (fun state => Except.ok (state, [])) begun
      | curly => cases round

/-- The block of a rule is read with the trees of its selector. -/
theorem toOption_readTree_rule {state : Reading} {bracket : Bracket} {selector : List Tree}
    (role : blockRole kind state bracket = .rule selector) (opener : Lexeme) (inner : List Tree)
    (last : Position) (closed : Bool) :
    (readTree commas kind state (.block bracket opener inner last closed)).toOption =
      ((writeValue commas selector).toOption.bind fun text =>
        (readItems commas .declarations last (.start .declarations) inner).toOption.map
          (Node.rule text)).map fun n => (.next, [n]) := by
  rw [readTree, role]
  simp only [toOption_bind]
  cases (writeValue commas selector).toOption with
  | none => rfl
  | some text =>
      cases (readItems commas .declarations last (.start .declarations) inner).toOption with
      | none => rfl
      | some children => rfl

/-- The block of an at-rule is read with the trees of its parameters. -/
theorem toOption_readTree_atBlock {state : Reading} {bracket : Bracket} {name : Text}
    {params : List Tree} (role : blockRole kind state bracket = .atRule name params)
    (opener : Lexeme) (inner : List Tree) (last : Position) (closed : Bool) :
    (readTree commas kind state (.block bracket opener inner last closed)).toOption =
      ((writeValue commas params).toOption.bind fun text =>
        (readItems commas (blockList name) last (.start (blockList name)) inner).toOption.map
          (Node.atBlock name text)).map fun n => (.next, [n]) := by
  rw [readTree, role]
  simp only [toOption_bind]
  cases (writeValue commas params).toOption with
  | none => rfl
  | some text =>
      cases (readItems commas (blockList name) last (.start (blockList name)) inner).toOption with
      | none => rfl
      | some children => rfl

/-- A selector is read up to the block of its rule. -/
theorem readItems_rule {selector : Text} (rules : kind ≠ .declarations)
    (framed : FramedSelector kind selector) (inner rest : List Tree) :
    (readItems commas kind stop (.between true fresh)
        (spaced selector ++ braces inner :: rest)).toOption = do
      let text ← respelled commas selector
      let children ← (readItems commas .declarations {} (.start .declarations) inner).toOption
      let nodes ← (readItems commas kind stop .next rest).toOption
      return .rule text children :: nodes := by
  have whole {state : Reading} {ts : List Tree}
      (role : blockRole kind state .curly = .rule ts)
      (same : (writeValue commas ts).toOption = respelled commas selector) :
      (readItems commas kind stop state (braces inner :: rest)).toOption = do
        let text ← respelled commas selector
        let children ← (readItems commas .declarations {} (.start .declarations) inner).toOption
        let nodes ← (readItems commas kind stop .next rest).toOption
        return .rule text children :: nodes := by
    rw [braces, readItems_item (toOption_readTree_rule role _ inner {} true), same]
    cases respelled commas selector with
    | none => rfl
    | some text =>
        cases (readItems commas .declarations {} (.start .declarations) inner).toOption with
        | none => rfl
        | some children => rfl
  have spelled := toOption_writeValue_spaced commas selector
  have start : blockRole kind (.between true fresh) .curly = .rule [] := by
    rw [blockRole, if_neg rules]
  cases trees : spaced selector with
  | nil =>
      rw [trees] at spelled
      exact whole start spelled
  | cons t ts =>
      have parts : spaced selector = shape selector ++ [space] :=
        if_neg fun empty => by simp [spaced, empty] at trees
      cases shaped : shape selector with
      | nil =>
          -- The text is blank, so its one tree belongs to no item.
          rw [← trees, parts, shaped, List.nil_append, List.cons_append, List.nil_append,
            readItems_space]
          rw [parts, shaped] at spelled
          exact whole start spelled
      | cons u us =>
          have same : t = u ∧ ts = us ++ [space] := by
            rw [parts, shaped] at trees
            exact ⟨(List.cons.inj trees).1.symm, (List.cons.inj trees).2.symm⟩
          have begins : t.beginsRule kind = true :=
            framed.begins t (by simp [shaped, same.1])
          have round : ∀ v ∈ t :: ts, v.isBraces = false := by
            intro v member
            rw [← trees, parts, List.mem_append, List.mem_singleton] at member
            rcases member with member | rfl
            · exact framed.whole v member
            · rfl
          rw [List.cons_append,
            readItems_step _ (readTree_begin_rule rules begins (round t (by simp))),
            readItems_selector fun v member => round v (List.mem_cons_of_mem t member)]
          refine whole ?_ (trees ▸ spelled)
          rw [blockRole, List.reverse_append, List.reverse_reverse]
          rfl

/-- An at-keyword begins an at-rule, unless it is the encoding of the sheet. -/
theorem readTree_begin_atRule {name : Text}
    (kept : ¬(kind = .sheet ∧ fresh = true ∧ lowercase name = "charset".toList)) :
    readTree commas kind (.between true fresh) (Token.atKeyword name).tree =
      .ok (.atRule name [], []) := by
  have stays : isSkipped kind (.atKeyword name) = false := by
    cases kind with
    | sheet => rfl
    | rules => rfl
    | declarations => rfl
  have begun : Reading.begin kind fresh (Token.atKeyword name).tree = .atRule name [] :=
    if_neg kept
  have step : readTree commas kind (.between true fresh) (Token.atKeyword name).tree =
      if isSkipped kind (.atKeyword name) then .ok (.between false fresh, [])
      else .ok (Reading.begin kind fresh (Token.atKeyword name).tree, []) := rfl
  rw [step, stays, begun]
  rfl

/-- An at-rule is read up to its semicolon. -/
theorem readItems_atStatement {name params : Text}
    (kept : ¬(kind = .sheet ∧ fresh = true ∧ lowercase name = "charset".toList))
    (framed : FramedParams ';' params) (rest : List Tree) :
    (readItems commas kind stop (.between true fresh) ((Token.atKeyword name).tree ::
        (statementLayout params ++ Token.semicolon.tree :: rest))).toOption = do
      let text ← respelled commas params
      let nodes ← (readItems commas kind stop .next rest).toOption
      return .atStatement name text :: nodes := by
  have parts : ∀ t ∈ statementLayout params, t.isBraces = false ∧ t.token ≠ .semicolon := by
    intro t member
    rw [statementLayout] at member
    split at member
    next => cases member
    next =>
      rcases List.mem_cons.mp member with rfl | member
      · exact ⟨rfl, by rintro ⟨⟩⟩
      · exact framed.whole t member
  have text : (writeValue commas (statementLayout params)).toOption =
      respelled commas params := by
    rw [← toOption_writeValue_shape, statementLayout]
    split
    next empty =>
      subst empty
      rw [shape_nil]
    next => rw [writeValue_cons_space]
  have step : (readTree commas kind (.atRule name ((statementLayout params).reverse ++ []))
      Token.semicolon.tree).toOption =
        ((respelled commas params).map (Node.atStatement name)).map fun n => (.next, [n]) := by
    have ended : readTree commas kind (.atRule name ((statementLayout params).reverse ++ []))
        Token.semicolon.tree = (do
          let nodes ← endItem commas {} []
            (.atRule name ((statementLayout params).reverse ++ []))
          return (Reading.next, nodes)) := rfl
    rw [ended, endItem, List.append_nil, List.reverse_reverse, toOption_bind, toOption_bind,
      text]
    cases respelled commas params with
    | none => rfl
    | some text => rfl
  rw [readItems_step _ (readTree_begin_atRule kept), readItems_params parts,
    readItems_item step]
  cases respelled commas params with
  | none => rfl
  | some text => rfl

/-- An at-rule is read up to its block. -/
theorem readItems_atBlock {name params : Text}
    (kept : ¬(kind = .sheet ∧ fresh = true ∧ lowercase name = "charset".toList))
    (framed : FramedParams ' ' params) (inner rest : List Tree) :
    (readItems commas kind stop (.between true fresh) ((Token.atKeyword name).tree :: space ::
        (spaced params ++ braces inner :: rest))).toOption = do
      let text ← respelled commas params
      let children ←
        (readItems commas (blockList name) {} (.start (blockList name)) inner).toOption
      let nodes ← (readItems commas kind stop .next rest).toOption
      return .atBlock name text children :: nodes := by
  have parts : ∀ t ∈ space :: spaced params, t.isBraces = false ∧ t.token ≠ .semicolon :=
    forall_mem_spaced ⟨rfl, by rintro ⟨⟩⟩ framed.whole
  have text : (writeValue commas (space :: spaced params)).toOption =
      respelled commas params := by
    rw [writeValue_cons_space, toOption_writeValue_spaced]
  have role : blockRole kind (.atRule name ((space :: spaced params).reverse ++ [])) .curly =
      .atRule name (space :: spaced params) := by
    rw [blockRole, List.append_nil, List.reverse_reverse]
  have step : (readTree commas kind (.atRule name ((space :: spaced params).reverse ++ []))
      (braces inner)).toOption = ((respelled commas params).bind fun text =>
        (readItems commas (blockList name) {} (.start (blockList name)) inner).toOption.map
          (Node.atBlock name text)).map fun n => (.next, [n]) := by
    rw [← text]
    exact toOption_readTree_atBlock role _ inner {} true
  rw [readItems_step _ (readTree_begin_atRule kept), ← List.cons_append,
    readItems_params parts, readItems_item step]
  cases respelled commas params with
  | none => rfl
  | some text =>
      cases (readItems commas (blockList name) {} (.start (blockList name)) inner).toOption with
      | none => rfl
      | some children => rfl

/-- A comment is read without the space inside its marks. -/
theorem trim_spaced (text : Text) : trim (' ' :: (text ++ [' '])) = trim text := by
  have blank : ∀ c ∈ [' '], isBlank c = true := List.forall_mem_singleton.mpr rfl
  exact trim_padded blank blank text

theorem readItems_comment {text : Text} (trimmed : trim text = text) (rest : List Tree) :
    (readItems commas kind stop (.between true fresh)
        ((Token.comment (' ' :: (text ++ [' ']))).tree :: rest)).toOption = do
      let nodes ← (readItems commas kind stop (.between true fresh) rest).toOption
      return .comment text :: nodes := by
  have step : readTree commas kind (.between true fresh)
      (Token.comment (' ' :: (text ++ [' ']))).tree =
        .ok (.between true fresh, [.comment text]) := by
    rw [Token.tree, readTree, readLeaf.eq_2 commas kind _ true fresh _ rfl, trim_spaced, trimmed]
    rfl
  have found : (readTree commas kind (.between true fresh)
      (Token.comment (' ' :: (text ++ [' ']))).tree).toOption =
        (some (Node.comment text)).map fun n => (.between true fresh, [n]) :=
    congrArg Except.toOption step
  exact readItems_item found rest

/-- The trees between the property and the semicolon. -/
def Declaration.body (d : Declaration) : List Tree :=
  Token.colon.tree :: space ::
    if d.important then
      spaced d.value ++ [(Token.delim '!').tree, (Token.ident "important".toList).tree]
    else shape d.value

theorem layout_eq_body (d : Declaration) :
    d.layout = (Token.ident d.property).tree :: (d.body ++ [Token.semicolon.tree]) := rfl

/-- A value ends at the exclamation mark. -/
theorem valuePart_append {front back : List Tree} (calm : ∀ t ∈ front, t.isBang = false)
    (bang : ∀ t ∈ back.head?, t.isBang = true) :
    valuePart (front ++ back) = front ∧ importancePart (front ++ back) = back := by
  have inside : ∀ t ∈ front, (!t.isBang) = true := by
    intro t member
    rw [calm t member]
    rfl
  rw [valuePart, importancePart, List.takeWhile_append_of_pos inside,
    List.dropWhile_append_of_pos inside]
  cases back with
  | nil => simp
  | cons t back =>
      have mark : t.isBang = true := bang t rfl
      simp [mark]

/-- A declaration is read from what is behind its colon. -/
theorem readDeclaration_colon (commas : Bool) (item property : Text) {important : Bool}
    {front back : List Tree} (calm : ∀ t ∈ front, t.isBang = false)
    (tail : readImportance stop back = .ok important)
    (bang : ∀ t ∈ back.head?, t.isBang = true) :
    (readDeclaration commas stop item property
        (Token.colon.tree :: (front ++ back))).toOption =
      (writeValue commas front).toOption.map fun value => ⟨property, value, important⟩ := by
  obtain ⟨values, importance⟩ := valuePart_append calm bang
  have colon : Tree.dropBlank (Token.colon.tree :: (front ++ back)) =
      Token.colon.tree :: (front ++ back) := rfl
  have token : Token.colon.tree.token = .colon := rfl
  rw [toOption_readDeclaration, colon]
  dsimp only
  rw [if_pos token, values, importance, tail]
  cases (writeValue commas front).toOption with
  | none => rfl
  | some value => rfl

/-- No tree of a value with the space around it ends the value. -/
theorem spaced_calm {d : Declaration} (framed : d.Framed) :
    ∀ t ∈ space :: spaced d.value, t.token ≠ .semicolon ∧ t.isBang = false :=
  forall_mem_spaced ⟨by rintro ⟨⟩, rfl⟩ framed.whole

theorem shape_calm {d : Declaration} (framed : d.Framed) :
    ∀ t ∈ space :: shape d.value, t.token ≠ .semicolon ∧ t.isBang = false := by
  intro t member
  rcases List.mem_cons.mp member with rfl | member
  · exact ⟨by rintro ⟨⟩, rfl⟩
  · exact framed.whole t member

/-- A declaration is read from its body, with its value spelled anew. -/
theorem readDeclaration_body {d : Declaration} (framed : d.Framed) (item : Text) :
    (readDeclaration commas stop item d.property d.body).toOption =
      (respelled commas d.value).map fun value => { d with value } := by
  obtain ⟨property, value, important⟩ := d
  cases important with
  | false =>
      have calm : ∀ t ∈ space :: shape value, t.isBang = false :=
        fun t member => (shape_calm framed t member).2
      have none : readImportance stop [] = .ok false := rfl
      have read := readDeclaration_colon commas item property calm none nofun
      rw [List.append_nil, writeValue_cons_space, toOption_writeValue_shape] at read
      exact read
  | true =>
      have calm : ∀ t ∈ space :: spaced value, t.isBang = false :=
        fun t member => (spaced_calm framed t member).2
      have mark : readImportance stop
          [(Token.delim '!').tree, (Token.ident "important".toList).tree] = .ok true := rfl
      have read := readDeclaration_colon commas item property calm mark (by rintro t ⟨⟩; rfl)
      rw [writeValue_cons_space, toOption_writeValue_spaced] at read
      exact read

theorem body_parts {d : Declaration} (framed : d.Framed) :
    ∀ t ∈ d.body, t.token ≠ .semicolon := by
  intro t member
  rcases List.mem_cons.mp member with rfl | member
  · exact nofun
  · cases important : d.important with
    | false =>
        rw [important] at member
        exact (shape_calm framed t member).1
    | true =>
        rw [important, if_pos rfl, ← List.cons_append, List.mem_append] at member
        rcases member with member | member
        · exact (spaced_calm framed t member).1
        · have mark : t = (Token.delim '!').tree ∨
              t = (Token.ident "important".toList).tree := by
            simpa using member
          rcases mark with rfl | rfl
          · exact nofun
          · exact nofun

/-- A declaration is read up to its semicolon. -/
theorem readItems_declaration {d : Declaration} (framed : d.Framed) (rest : List Tree) :
    (readItems commas .declarations stop (.between true fresh) (d.layout ++ rest)).toOption = do
      let value ← respelled commas d.value
      let nodes ← (readItems commas .declarations stop .next rest).toOption
      return .declaration { d with value } :: nodes := by
  have begun : readTree commas .declarations (.between true fresh)
      (Token.ident d.property).tree =
        .ok (.declaration (Token.ident d.property).tree d.property [], []) := rfl
  have step : (readTree commas .declarations
      (.declaration (Token.ident d.property).tree d.property (d.body.reverse ++ []))
      Token.semicolon.tree).toOption =
        ((respelled commas d.value).map fun value => Node.declaration { d with value }).map
          fun n => (Reading.next, [n]) := by
    have ended : readTree commas .declarations
        (.declaration (Token.ident d.property).tree d.property (d.body.reverse ++ []))
        Token.semicolon.tree = (do
          let nodes ← endItem commas {} []
            (.declaration (Token.ident d.property).tree d.property (d.body.reverse ++ []))
          return (Reading.next, nodes)) := rfl
    rw [ended, endItem]
    simp only [List.append_nil, List.reverse_reverse, toOption_bind, readDeclaration_body framed]
    cases respelled commas d.value with
    | none => rfl
    | some value => rfl
  rw [layout_eq_body, List.cons_append, List.append_assoc, readItems_step _ begun,
    readItems_body (body_parts framed), List.singleton_append, readItems_item step]
  cases respelled commas d.value with
  | none => rfl
  | some value => rfl

end Items

/-!
### Reading a printed style sheet
-/

section Sheets

variable {commas : Bool}

/-- The block of an at-rule is no style sheet. -/
theorem blockList_ne_sheet (name : Text) : blockList name ≠ .sheet := by
  rw [blockList]
  split <;> exact nofun

mutual

/-- The layout of an item is read as the item, with its texts spelled anew. -/
theorem readItems_layout {kind : ItemList} {stop : Position} {fresh : Bool} {n : Node}
    (framed : n.Framed kind)
    (kept : ¬(kind = .sheet ∧ fresh = true ∧ startsEncoding [n] = true)) (rest : List Tree) :
    (readItems commas kind stop (.between true fresh) (n.layout ++ rest)).toOption = do
      let n' ← n.respell commas
      let nodes ← (readItems commas kind stop (behind fresh n) rest).toOption
      return n' :: nodes := by
  cases n with
  | rule selector children =>
      obtain ⟨rules, head, inner⟩ := framed
      have inside : (readItems commas .declarations {} (.start .declarations)
          (space :: layoutAll children)).toOption = respellAll commas children :=
        (congrArg Except.toOption (readItems_space true false _)).trans
          (readItems_layoutAll inner nofun)
      rw [Node.layout, List.append_assoc, List.singleton_append, readItems_rule rules head, inside,
        Node.respell]
      simp only [Option.bind_eq_bind, Option.bind_assoc]
      rfl
  | atBlock name params children =>
      obtain ⟨-, head, inner⟩ := framed
      have starts : Reading.start (blockList name) = .between true false := by
        rw [Reading.start, decide_eq_false (blockList_ne_sheet name)]
      have inside : (readItems commas (blockList name) {} (.start (blockList name))
          (space :: layoutAll children)).toOption = respellAll commas children := by
        rw [starts, readItems_space]
        exact readItems_layoutAll inner nofun
      have first : ¬(kind = .sheet ∧ fresh = true ∧ lowercase name = "charset".toList) :=
        fun ⟨sheet, start, same⟩ => kept ⟨sheet, start, beq_iff_eq.mpr same⟩
      rw [Node.layout, List.cons_append, List.cons_append, List.append_assoc,
        List.singleton_append, readItems_atBlock first head, inside, Node.respell]
      simp only [Option.bind_eq_bind, Option.bind_assoc]
      rfl
  | atStatement name params =>
      obtain ⟨-, head⟩ := framed
      have first : ¬(kind = .sheet ∧ fresh = true ∧ lowercase name = "charset".toList) :=
        fun ⟨sheet, start, same⟩ => kept ⟨sheet, start, beq_iff_eq.mpr same⟩
      rw [Node.layout, List.cons_append, List.append_assoc, List.singleton_append,
        readItems_atStatement first head, Node.respell]
      simp only [Option.bind_eq_bind, Option.bind_assoc]
      rfl
  | declaration d =>
      obtain ⟨rfl, framed⟩ := framed
      rw [Node.layout, readItems_declaration framed, Node.respell]
      simp only [Option.bind_eq_bind, Option.bind_assoc]
      rfl
  | comment text =>
      obtain ⟨trimmed, -⟩ := framed
      exact readItems_comment trimmed rest

/-- The layout of a list of items is read as the items. -/
theorem readItems_layoutAll {kind : ItemList} {stop : Position} {fresh : Bool}
    {nodes : List Node} (framed : FramedAll kind nodes)
    (kept : ¬(kind = .sheet ∧ fresh = true ∧ startsEncoding nodes = true)) :
    (readItems commas kind stop (.between true fresh) (layoutAll nodes)).toOption =
      respellAll commas nodes := by
  cases nodes with
  | nil => rfl
  | cons n rest =>
      obtain ⟨first, more⟩ := framed
      -- Behind a comment the sheet is as fresh as before it.
      have later : (readItems commas kind stop (behind fresh n)
          (space :: layoutAll rest)).toOption = respellAll commas rest := by
        cases comment : n.isComment with
        | true =>
            have tail : startsEncoding rest = startsEncoding (n :: rest) := by
              cases n with
              | comment text => rfl
              | rule selector children => cases comment
              | atBlock name params children => cases comment
              | atStatement name params => cases comment
              | declaration d => cases comment
            rw [← tail] at kept
            rw [behind, comment, if_pos rfl, readItems_space]
            exact readItems_layoutAll more kept
        | false =>
            rw [behind, comment]
            exact (congrArg Except.toOption (readItems_space true false _)).trans
              (readItems_layoutAll more nofun)
      have head : ¬(kind = .sheet ∧ fresh = true ∧ startsEncoding [n] = true) := by
        cases n with
        | rule selector children => nofun
        | atBlock name params children => exact kept
        | atStatement name params => exact kept
        | declaration d => nofun
        | comment text => nofun
      rw [layoutAll, readItems_layout first head, later, respellAll]

end

/-- White space before a text adds at most one tree. -/
theorem shape_of_dropWhile {s : Text} {ts : List Tree}
    (forms : Forms (s.dropWhile isSpace) [] ts) : shape s = ts ∨ shape s = space :: ts := by
  cases s with
  | nil => exact Or.inl (shape_of_forms forms)
  | cons c s =>
      cases blank : isSpace c with
      | true =>
          rw [List.dropWhile_cons_of_pos blank] at forms
          exact Or.inr (shape_of_forms ((forms_space s blank).trans forms))
      | false =>
          rw [dropWhile_of_stops (stops_cons.mpr blank)] at forms
          exact Or.inl (shape_of_forms forms)

/-- A sheet is read from its shape. -/
theorem toOption_parse (commas : Bool) (source : Text) :
    (parse commas source).toOption =
      (readItems commas .sheet {} (.start .sheet) (shape (dropMark source))).toOption :=
  (toOption_readItems_bareAll commas .sheet _ {} (.start .sheet)
    (trees (dropMark source))).symm

/-- Whether the first item is a rule whose selector starts with a byte order mark. -/
def startsMark : List Node → Bool
  | .rule ('\uFEFF' :: _) _ :: _ => true
  | _ => false

/-- A sheet whose texts keep to themselves, and whose start is neither taken for an encoding
nor for a byte order mark. -/
structure FramedSheet (nodes : List Node) : Prop where
  items : FramedAll .sheet nodes
  encoding : startsEncoding nodes = false
  mark : startsMark nodes = false

/-- A printed sheet starts with no byte order mark. -/
theorem dropMark_print {s : FormatSettings} {nodes : List Node}
    (framed : FramedSheet nodes) (keeps : s.stripComments = false) :
    dropMark (print s nodes) = print s nodes := by
  have start : ∀ tail, print s nodes = '\uFEFF' :: tail → False := by
    intro tail printed
    obtain ⟨items, -, mark⟩ := framed
    cases nodes with
    | nil => cases printed
    | cons n rest =>
        have first : print s (n :: rest) =
            printItem s 0 n ++ printItems s 0 (some n) rest := by
          rw [print, printItems, keeps]
          rfl
        rw [first] at printed
        cases n with
        | rule selector children =>
            have spelled : printItem s 0 (.rule selector children) =
                selector ++ (' ' :: '\x7b' :: '\n' ::
                  (printItems s 1 none children ++ "\x7d\n".toList)) := by
              rw [printItem]
              simp [FormatSettings.margin]
            rw [spelled] at printed
            cases selector with
            | nil => simp at printed
            | cons c selector =>
                have same : c = '\uFEFF' := (List.cons.inj printed).1
                subst same
                cases mark
        | atBlock name params children =>
            have at_ : '@' = '\uFEFF' := (List.cons.inj printed).1
            revert at_
            decide
        | atStatement name params =>
            have at_ : '@' = '\uFEFF' := (List.cons.inj printed).1
            revert at_
            decide
        | declaration d => cases items.1.1
        | comment text =>
            have slash : '/' = '\uFEFF' := (List.cons.inj printed).1
            revert slash
            decide
  exact dropMark.eq_2 _ start

/-- What is printed is read as it was, with its texts spelled anew, whatever the layout is. -/
theorem toOption_parse_print (commas : Bool) {s : FormatSettings} {nodes : List Node}
    (valid : s.validate = .ok ()) (keeps : s.stripComments = false)
    (framed : FramedSheet nodes) :
    (parse commas (print s nodes)).toOption = respellAll commas nodes := by
  have forms := forms_printItems valid keeps 0 none framed.items []
  rw [List.append_nil] at forms
  have read : (readItems commas .sheet {} (.start .sheet) (layoutAll nodes)).toOption =
      respellAll commas nodes :=
    readItems_layoutAll framed.items (by simp [framed.encoding])
  rw [toOption_parse, dropMark_print framed keeps, print]
  rcases shape_of_dropWhile forms with same | same
  · rw [same]
    exact read
  · rw [same]
    exact (congrArg Except.toOption (readItems_space true true _)).trans read

/-- Reading undoes printing where all texts are in their normal spelling. -/
theorem parse_print {s : FormatSettings} {nodes : List Node} (valid : s.validate = .ok ())
    (keeps : s.stripComments = false) (framed : FramedSheet nodes)
    (normal : NormalAll commas nodes) : parse commas (print s nodes) = .ok nodes := by
  rw [← toOption_eq_some, toOption_parse_print commas valid keeps framed]
  exact (respellAll_eq_self nodes).mpr normal

end Sheets

end Swatch
