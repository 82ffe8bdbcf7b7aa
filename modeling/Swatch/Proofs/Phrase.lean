/-
Module: Swatch.Proofs.Phrase
Purpose: Texts that are read as known trees and written as they are.
Main exports:
  identText_of_isName, Phrase, Phrase.join, phrase_joined, Phrase.framed, Phrase.normal
-/
import Swatch.Proofs.Digits
import Swatch.Proofs.Layout
import Swatch.Proofs.Literals
import Swatch.Proofs.Spelling

namespace Swatch

/-!
### Names are written as they are
-/

theorem nameText_eq {name : Text} (all : ∀ c ∈ name, isNameChar c = true ∧ c ≠ '\x00') :
    nameText name = name := by
  induction name with
  | nil => rfl
  | cons c name ih =>
      obtain ⟨inside, nonzero⟩ := all c (by simp)
      have kept : (c.isAlphanum || c == '_' || c == '-' || decide (0x80 ≤ c.toNat)) = true := by
        simp only [isNameChar, isNameStart, Char.isAlphanum, Bool.or_eq_true, beq_iff_eq,
          decide_eq_true_eq, nonzero, or_false] at inside ⊢
        rcases inside with (((alpha | underscore) | wide) | digit) | hyphen
        · exact Or.inl (Or.inl (Or.inl (Or.inl alpha)))
        · exact Or.inl (Or.inl (Or.inr underscore))
        · exact Or.inr wide
        · exact Or.inl (Or.inl (Or.inl (Or.inr digit)))
        · exact Or.inl (Or.inr hyphen)
      have spelled : nameCharText c = [c] := by
        rw [nameCharText, if_neg nonzero, if_pos kept]
      rw [nameText, List.flatMap_cons, spelled]
      exact congrArg (c :: ·) (ih fun d member => all d (List.mem_cons_of_mem c member))

theorem leadText_eq {c : Char} {s : Text} (digit : c.isDigit = false)
    (all : ∀ d ∈ c :: s, isNameChar d = true ∧ d ≠ '\x00') : leadText (c :: s) = c :: s := by
  rw [leadText, digit]
  exact nameText_eq all

/-- A name needs no escape. -/
theorem identText_of_isName {name : Text} (isName : IsName name) : identText name = name := by
  cases name with
  | nil => exact absurd isName not_isName_nil
  | cons c s =>
      rcases isName.cases with start | ⟨rfl, d, rest, rfl, second⟩
      · have hyphen : c ≠ '-' := ne_of_class start (by decide)
        rw [identText.eq_4 (c :: s) (fun _ same => hyphen (List.cons.inj same).1)
          (fun same => hyphen (List.cons.inj same).1)
          (fun _ same => hyphen (List.cons.inj same).1)]
        exact leadText_eq (isDigit_of_isNameStart start) isName.2
      · have tail : ∀ e ∈ d :: rest, isNameChar e = true ∧ e ≠ '\x00' :=
          fun e member => isName.2 e (List.mem_cons_of_mem '-' member)
        rcases second with start | rfl
        · have hyphen : d ≠ '-' := ne_of_class start (by decide)
          rw [identText.eq_3 (d :: rest) (fun _ same => hyphen (List.cons.inj same).1) nofun,
            leadText_eq (isDigit_of_isNameStart start) tail]
        · rw [identText, nameText_eq fun e member => tail e (List.mem_cons_of_mem '-' member)]

/-!
### Phrases
-/

/-- A text that is read as the trees `ts` wherever a break follows, and written from them as
it is.  None of the trees ends an item, and the first one begins a rule where rules stand. -/
structure Phrase (commas : Bool) (u : Text) (ts : List Tree) : Prop where
  nonempty : u ≠ [] ∧ ts ≠ []
  start : Stops isSpace u
  forms : ∀ rest, Breaks rest → Forms (u ++ rest) rest ts
  writes : ∀ gap begun us out, writeTrees commas false false true us = .ok out →
    writeTrees commas false gap begun (ts ++ us) =
      .ok ((if gap then [' '] else []) ++ u ++ out)
  begins : ∀ kind, ∀ t ∈ ts.head?, t.beginsRule kind = true
  calm : ∀ t ∈ ts, t.isBraces = false ∧ t.token ≠ .semicolon ∧ t.isBang = false

/-- Two phrases with a space between them are a phrase. -/
theorem Phrase.join {commas : Bool} {u v : Text} {ts us : List Tree}
    (front : Phrase commas u ts) (back : Phrase commas v us) :
    Phrase commas (u ++ ' ' :: v) (ts ++ space :: us) where
  nonempty := by simp [front.nonempty]
  start := by
    obtain ⟨c, w, rfl⟩ := List.exists_cons_of_ne_nil front.nonempty.1
    exact front.start
  forms rest breaks := by
    have here : Stops isSpace (v ++ rest) := by
      obtain ⟨c, w, rfl⟩ := List.exists_cons_of_ne_nil back.nonempty.1
      exact back.start
    have blank : Forms (' ' :: (v ++ rest)) _ [space] := forms_space _ rfl
    rw [dropWhile_of_stops here] at blank
    rw [List.append_assoc]
    have breaksSpace : Breaks (' ' :: (v ++ rest)) := rfl
    exact (front.forms _ breaksSpace).trans (blank.trans (back.forms rest breaks))
  writes gap begun more out written := by
    have later := back.writes true true more out written
    have gapped : writeTrees commas false false true (space :: (us ++ more)) =
        .ok (' ' :: (v ++ out)) := by
      have blank : space.isBlank = true := rfl
      rw [writeTrees, if_pos blank]
      exact later
    rw [List.append_assoc, List.cons_append, front.writes gap begun _ _ gapped]
    simp
  begins kind t member := by
    refine front.begins kind t ?_
    obtain ⟨first, ts, rfl⟩ := List.exists_cons_of_ne_nil front.nonempty.2
    exact member
  calm t member := by
    rcases List.mem_append.mp member with member | member
    · exact front.calm t member
    · rcases List.mem_cons.mp member with rfl | member
      · exact ⟨rfl, nofun, rfl⟩
      · exact back.calm t member

/-- Phrases with spaces between them are a phrase. -/
theorem phrase_joined {commas : Bool} {words : List Text} (nonempty : words ≠ [])
    (all : ∀ u ∈ words, ∃ ts, Phrase commas u ts) :
    ∃ ts, Phrase commas (joined [' '] words) ts := by
  induction words with
  | nil => exact absurd rfl nonempty
  | cons u words ih =>
      obtain ⟨ts, front⟩ := all u (by simp)
      cases words with
      | nil => exact ⟨ts, front⟩
      | cons v words =>
          obtain ⟨us, back⟩ := ih (List.cons_ne_nil v words) fun w member =>
            all w (List.mem_cons_of_mem u member)
          refine ⟨ts ++ space :: us, ?_⟩
          have spelled : joined [' '] (u :: v :: words) =
              u ++ ' ' :: joined [' '] (v :: words) := by
            simp [joined]
          rw [spelled]
          exact front.join back

/-- A phrase has its trees as its shape. -/
theorem Phrase.shape_eq {commas : Bool} {u : Text} {ts : List Tree}
    (phrase : Phrase commas u ts) : shape u = ts := by
  have forms := phrase.forms [] rfl
  rw [List.append_nil] at forms
  exact shape_of_forms forms

/-- A phrase keeps to itself. -/
theorem Phrase.framed {commas : Bool} {u : Text} {ts : List Tree}
    (phrase : Phrase commas u ts) {stop : Char} (breaks : isBreak stop = true) :
    FramedText stop u where
  start := phrase.start
  forms rest := by
    rw [phrase.shape_eq]
    exact phrase.forms _ (breaks_cons.mpr breaks)

/-- A phrase is in its normal spelling. -/
theorem Phrase.normal {commas : Bool} {u : Text} {ts : List Tree}
    (phrase : Phrase commas u ts) : respelled commas u = some u := by
  rw [respelled, toOption_eq_some, ← writeValue_shape, phrase.shape_eq]
  have written := phrase.writes false false [] [] rfl
  simpa [writeValue] using written

/-- Nothing at all keeps to itself. -/
theorem framed_nil (stop : Char) : FramedText stop [] where
  start := rfl
  forms rest := by
    rw [shape_nil]
    exact Forms.refl _

/-- Nothing at all is in its normal spelling. -/
theorem normal_nil (commas : Bool) : respelled commas [] = some [] := by
  rw [respelled, toOption_eq_some, ← writeValue_shape, shape_nil]
  rfl

/-!
### Words
-/

section Words

variable {commas : Bool}

/-- A tree that is neither blank nor a comma is written behind the space that is due. -/
theorem writeTrees_cons {nested : Bool} {t : Tree} {text : Text} (dark : t.isBlank = false)
    (comma : t.isComma = false) (head : t.write commas = .ok text) (gap begun : Bool)
    {us : List Tree} {out : Text}
    (later : writeTrees commas nested false true us = .ok out) :
    writeTrees commas nested gap begun (t :: us) =
      .ok ((if gap then [' '] else []) ++ text ++ out) := by
  rw [writeTrees, dark, comma, Bool.and_false, head, later]
  rfl

/-- A token that stands in words and in no other place. -/
inductive Token.InWord : Token → Prop
  | ident (name : Text) : InWord (.ident name)
  | hash (name : Text) : InWord (.hash name)
  | idHash (name : Text) : InWord (.idHash name)
  | function (name : Text) : InWord (.function name)
  | colon : InWord .colon
  | point : InWord (.delim '.')

/-- A tree that starts with such a token neither begins nor ends anything but a rule. -/
theorem Token.InWord.calm {t : Tree} (word : t.token.InWord) :
    t.isBlank = false ∧ t.isComma = false ∧ t.token ≠ .semicolon ∧ t.isBang = false ∧
      ∀ kind, t.beginsRule kind = true := by
  rw [Tree.isBlank, Tree.isComma, Tree.isBang]
  simp only [Tree.beginsRule]
  generalize t.token = token at word
  cases word with
  | ident name => exact ⟨rfl, rfl, by rintro ⟨⟩, rfl, fun kind => by cases kind <;> rfl⟩
  | hash name => exact ⟨rfl, rfl, by rintro ⟨⟩, rfl, fun kind => by cases kind <;> rfl⟩
  | idHash name => exact ⟨rfl, rfl, by rintro ⟨⟩, rfl, fun kind => by cases kind <;> rfl⟩
  | function name => exact ⟨rfl, rfl, by rintro ⟨⟩, rfl, fun kind => by cases kind <;> rfl⟩
  | colon => exact ⟨rfl, rfl, by rintro ⟨⟩, rfl, fun kind => by cases kind <;> rfl⟩
  | point => exact ⟨rfl, rfl, by rintro ⟨⟩, rfl, fun kind => by cases kind <;> rfl⟩

/-- One tree that is spelled as it was read is a phrase. -/
theorem phrase_tree {u : Text} {t : Tree} (nonempty : u ≠ []) (start : Stops isSpace u)
    (word : t.token.InWord) (round : t.isBraces = false) (text : t.write commas = .ok u)
    (forms : ∀ rest, Breaks rest → Forms (u ++ rest) rest [t]) : Phrase commas u [t] := by
  obtain ⟨dark, comma, semicolon, bang, begins⟩ := word.calm
  exact
    { nonempty := ⟨nonempty, List.cons_ne_nil t []⟩
      start
      forms
      writes := fun gap begun _ _ later => writeTrees_cons dark comma text gap begun later
      begins := fun kind u member => by
        cases member
        exact begins kind
      calm := fun u member => by
        rw [List.mem_singleton.mp member]
        exact ⟨round, semicolon, bang⟩ }

/-- A mark in front of a phrase belongs to it. -/
theorem Phrase.after {c : Char} {t : Token} {u : Text} {ts : List Tree}
    (back : Phrase commas u ts) (dark : isSpace c = false) (word : t.InWord)
    (text : t.tree.write commas = .ok [c])
    (forms : ∀ rest, Forms (c :: (u ++ rest)) (u ++ rest) [t.tree]) :
    Phrase commas (c :: u) (t.tree :: ts) := by
  have wordTree : t.tree.token.InWord := word
  obtain ⟨solid, comma, semicolon, bang, begins⟩ := wordTree.calm
  exact
    { nonempty := ⟨List.cons_ne_nil c u, List.cons_ne_nil t.tree ts⟩
      start := stops_cons.mpr dark
      forms := fun rest breaks => (forms rest).trans (back.forms rest breaks)
      writes := fun gap begun us out later => by
        have tail := back.writes false true us out later
        rw [List.cons_append, writeTrees_cons solid comma text gap begun tail]
        simp
      begins := fun kind u member => by
        cases member
        exact begins kind
      calm := fun u member => by
        rcases List.mem_cons.mp member with rfl | member
        · exact ⟨rfl, semicolon, bang⟩
        · exact back.calm u member }

theorem phrase_ident {name : Text} (isName : IsName name) :
    Phrase commas name [(Token.ident name).tree] := by
  have nonempty : name ≠ [] := by
    rintro rfl
    exact not_isName_nil isName
  have start : Stops isSpace name := by
    obtain ⟨c, s, rfl⟩ := List.exists_cons_of_ne_nil nonempty
    rcases isName.cases with start | ⟨rfl, -⟩
    · exact stops_cons.mpr (isSpace_of_isNameStart start)
    · rfl
  exact phrase_tree nonempty start (.ident name) rfl
    (congrArg Except.ok (identText_of_isName isName)) fun rest breaks =>
      Forms.leaf (tokens_name isName breaks) rfl nofun

theorem phrase_idHash {name : Text} (isName : IsName name) :
    Phrase commas ('#' :: name) [(Token.idHash name).tree] :=
  phrase_tree (List.cons_ne_nil '#' name) rfl (.idHash name) rfl
    (congrArg (fun text => Except.ok ('#' :: text)) (identText_of_isName isName))
    fun _ breaks => Forms.leaf (tokens_idHash isName breaks) rfl nofun

theorem phrase_hash {d : Char} {name : Text} (digit : d.isDigit = true)
    (all : ∀ c ∈ d :: name, isNameChar c = true ∧ c ≠ '\x00') :
    Phrase commas ('#' :: d :: name) [(Token.hash (d :: name)).tree] :=
  phrase_tree (List.cons_ne_nil '#' _) rfl (.hash _) rfl
    (congrArg (fun text => Except.ok ('#' :: text)) (nameText_eq all))
    fun _ breaks => Forms.leaf (tokens_hash digit all breaks) rfl nofun

theorem phrase_colon {name : Text} (isName : IsName name) :
    Phrase commas (':' :: name) [Token.colon.tree, (Token.ident name).tree] :=
  (phrase_ident isName).after rfl .colon rfl fun rest =>
    Forms.leaf (tokens_colon (name ++ rest)) rfl nofun

theorem phrase_point {name : Text} (isName : IsName name) :
    Phrase commas ('.' :: name) [(Token.delim '.').tree, (Token.ident name).tree] :=
  (phrase_ident isName).after rfl .point rfl fun rest =>
    Forms.leaf (tokens_point isName rest) rfl nofun

/-!
### Functions
-/

/-- A function with its arguments. -/
def call (name : Text) (arguments : List Token) : Tree :=
  .block .round (Token.function name).bare (arguments.map Token.tree) {} true

theorem write_call {name inner : Text} {arguments : List Token} (isName : IsName name)
    (text : writeTrees commas true false false (arguments.map Token.tree) = .ok inner) :
    (call name arguments).write commas = .ok (name ++ '(' :: (inner ++ [')'])) := by
  have spelled : (Token.function name).text = name ++ ['('] :=
    congrArg (· ++ ['(']) (identText_of_isName isName)
  rw [call, Tree.write, text]
  simp only [Token.token_bare, spelled, List.append_assoc]
  rfl

theorem phrase_call {name inner : Text} {arguments : List Token} (isName : IsName name)
    (other : lowercase name ≠ "url".toList)
    (leaves : ∀ t ∈ arguments, t.opens? = none ∧ t ≠ .closing .round)
    (read : ∀ rest, tokens (inner ++ ')' :: rest) = arguments ++ .closing .round :: tokens rest)
    (text : writeTrees commas true false false (arguments.map Token.tree) = .ok inner) :
    Phrase commas (name ++ '(' :: (inner ++ [')'])) [call name arguments] := by
  have word : Phrase commas name [(Token.ident name).tree] := phrase_ident isName
  have start : Stops isSpace (name ++ '(' :: (inner ++ [')'])) :=
    stops_append word.start rfl
  refine phrase_tree (by simp) start (.function name) rfl (write_call isName text)
    fun rest _ => ?_
  refine Forms.function ?_ leaves
  have spelled : name ++ '(' :: (inner ++ [')']) ++ rest =
      name ++ '(' :: (inner ++ ')' :: rest) := by
    simp
  rw [spelled, tokens_function isName other, read]

/-- A reference to a variable. -/
theorem phrase_var {name : Text} (isName : IsName name) :
    Phrase commas ("var(".toList ++ name ++ [')']) [call "var".toList [.ident name]] := by
  have var : IsName "var".toList := by decide
  have other : lowercase "var".toList ≠ "url".toList := by decide
  have word : (Token.ident name).tree.write commas = .ok name :=
    congrArg Except.ok (identText_of_isName isName)
  have text : writeTrees commas true false false [(Token.ident name).tree] = .ok name := by
    rw [writeTrees_cons rfl rfl word false false rfl]
    simp
  have read (rest : Text) :
      tokens (name ++ ')' :: rest) = [.ident name] ++ .closing .round :: tokens rest := by
    rw [tokens_name isName (breaks_cons.mpr (by decide)), tokens_closeRound]
    rfl
  exact phrase_call var other (by simp [Token.opens?]) read text

/-- The arguments of a colour. -/
def components (red green blue : Text) : List Token :=
  [.number (digitsNumeral red), .comma, .whitespace, .number (digitsNumeral green), .comma,
    .whitespace, .number (digitsNumeral blue)]

/-- A comma and a space behind it are written as they are, whether or not commas get the
normal spacing. -/
theorem writeTrees_comma {us : List Tree} {out : Text}
    (later : writeTrees commas true true true us = .ok out) :
    writeTrees commas true false true (Token.comma.tree :: space :: us) = .ok (',' :: out) := by
  have spaced (gap : Bool) (due : (gap || true || (true && !commas)) = true) :
      writeTrees commas true gap true (space :: us) = .ok out := by
    have blank : space.isBlank = true := rfl
    rw [writeTrees, if_pos blank, due]
    exact later
  have solid : Token.comma.tree.isBlank = false := rfl
  have isComma : Token.comma.tree.isComma = true := rfl
  rw [writeTrees, solid, isComma]
  cases commas with
  | true =>
      rw [spaced true rfl]
      rfl
  | false =>
      rw [spaced false rfl]
      rfl

/-- The components of a colour in decimal digits, as they stand between the brackets. -/
def componentsText (red green blue : Nat) : Text :=
  natural red ++ ',' :: ' ' :: (natural green ++ ',' :: ' ' :: natural blue)

theorem isDigitRun_natural (n : Nat) : IsDigitRun (natural n) :=
  ⟨Nat.toDigits_ne_nil, fun _ member => Nat.isDigit_of_mem_toDigits (by decide) (by decide) member⟩

/-- Digits start with no white space. -/
theorem IsDigitRun.stopsSpace {digits : Text} (run : IsDigitRun digits) (rest : Text) :
    Stops isSpace (digits ++ rest) := by
  obtain ⟨nonempty, all⟩ := run
  cases digits with
  | nil => exact absurd rfl nonempty
  | cons c s =>
      have digit : c.isDigit = true := all c List.mem_cons_self
      refine stops_cons.mpr ?_
      rw [isDigit_iff] at digit
      rw [Bool.eq_false_iff, ne_eq, isSpace_iff]
      omega

/-- A number behind a comma and a space. -/
theorem tokens_separated {digits : Text} (run : IsDigitRun digits) (rest : Text) :
    tokens (',' :: ' ' :: (digits ++ rest)) =
      .comma :: .whitespace :: tokens (digits ++ rest) := by
  rw [tokens_comma, tokens_space _ rfl, dropWhile_of_stops (run.stopsSpace rest)]

/-- Three runs of digits with commas are three numbers. -/
theorem tokens_components {red green blue : Text} (r : IsDigitRun red) (g : IsDigitRun green)
    (b : IsDigitRun blue) (rest : Text) :
    tokens (red ++ ',' :: ' ' :: (green ++ ',' :: ' ' :: (blue ++ ')' :: rest))) =
      components red green blue ++ .closing .round :: tokens rest := by
  have number {digits : Text} (run : IsDigitRun digits) {c : Char} (mark : isBreak c = true)
      (rest : Text) : tokens (digits ++ c :: rest) =
        .number (digitsNumeral digits) :: tokens (c :: rest) :=
    tokens_digits run.1 run.2 (Breaks.stopsNumber (breaks_cons.mpr mark))
  rw [number r rfl, tokens_separated g, number g rfl, tokens_separated b, number b rfl,
    tokens_closeRound]
  rfl

/-- Digits below a million are written without leading zeros. -/
theorem write_digits {digits : Text} (small : digitsValue digits < 10 ^ 6) :
    (Token.number (digitsNumeral digits)).tree.write commas =
      .ok (natural (digitsValue digits)) :=
  congrArg Except.ok (digitsNumeral_text small)

theorem writeTrees_components {red green blue : Nat} (r : red < 10 ^ 6) (g : green < 10 ^ 6)
    (b : blue < 10 ^ 6) :
    writeTrees commas true false false
      ((components (natural red) (natural green) (natural blue)).map Token.tree) =
        .ok (componentsText red green blue) := by
  have head {n : Nat} (small : n < 10 ^ 6) :
      (Token.number (digitsNumeral (natural n))).tree.write commas = .ok (natural n) := by
    rw [write_digits (by rw [digitsValue_natural]; exact small), digitsValue_natural]
  have nothing : writeTrees commas true false true [] = .ok [] := rfl
  have third := writeTrees_cons rfl rfl (head b) true true nothing
  have second := writeTrees_cons rfl rfl (head g) true true (writeTrees_comma third)
  have first := writeTrees_cons rfl rfl (head r) false false (writeTrees_comma second)
  simpa [components, componentsText, space] using first

/-- A colour with decimal components. -/
theorem phrase_rgb {red green blue : Nat} (r : red < 10 ^ 6) (g : green < 10 ^ 6)
    (b : blue < 10 ^ 6) :
    Phrase commas (rgbText (natural red) (natural green) (natural blue))
      [call "rgb".toList (components (natural red) (natural green) (natural blue))] := by
  have rgb : IsName "rgb".toList := by decide
  have other : lowercase "rgb".toList ≠ "url".toList := by decide
  have leaves : ∀ t ∈ components (natural red) (natural green) (natural blue),
      t.opens? = none ∧ t ≠ .closing .round := by
    simp [components, Token.opens?]
  have spelled : rgbText (natural red) (natural green) (natural blue) =
      "rgb".toList ++ '(' :: (componentsText red green blue ++ [')']) := by
    delta rgbText componentsText
    simp
  have read (rest : Text) : tokens (componentsText red green blue ++ ')' :: rest) =
      components (natural red) (natural green) (natural blue) ++
        .closing .round :: tokens rest := by
    have runs := tokens_components (isDigitRun_natural red) (isDigitRun_natural green)
      (isDigitRun_natural blue) rest
    simpa [componentsText] using runs
  rw [spelled]
  exact phrase_call rgb other leaves read (writeTrees_components r g b)

end Words

end Swatch
