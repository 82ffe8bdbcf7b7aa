/-
Module: Swatch.Proofs.Plain
Purpose: Style sheets of plain words are read from what they are printed as.
Main exports:
  IsIdentifier, IsSelectorWord, IsValueWord, Node.Plain, PlainAll, withoutComments,
  parse_print_plain
-/
import Swatch.Proofs.Phrase
import Swatch.Proofs.Reread
import Swatch.Proofs.Stripping
import Swatch.Variables.Substitute

namespace Swatch

/-!
### Plain words
-/

/-- A letter or digit of the ASCII range, a hyphen or an underscore. -/
def isIdentChar (c : Char) : Bool := c.isAlphanum || c == '-' || c == '_'

/-- Whether a text starts with a letter, or with a hyphen and a letter. -/
def startsIdentifier : Text → Bool
  | '-' :: c :: _ => c.isAlpha
  | c :: _ => c.isAlpha
  | [] => false

/-- A name that starts with a letter, or with a hyphen and a letter. -/
def IsIdentifier (name : Text) : Prop :=
  startsIdentifier name = true ∧ ∀ c ∈ name, isIdentChar c = true

instance (name : Text) : Decidable (IsIdentifier name) :=
  @instDecidableAnd _ _ inferInstance (List.decidableBAll _ name)

/-- A name that starts with two hyphens and goes on. -/
def IsVariableName (name : Text) : Prop :=
  ∃ stem, stem ≠ [] ∧ (∀ c ∈ stem, isIdentChar c = true) ∧ name = '-' :: '-' :: stem

/-- A word of a selector: an element, a class, a state or an identity. -/
inductive IsSelectorWord : Text → Prop
  | element {name : Text} : IsIdentifier name → IsSelectorWord name
  | class_ {name : Text} : IsIdentifier name → IsSelectorWord ('.' :: name)
  | state {name : Text} : IsIdentifier name → IsSelectorWord (':' :: name)
  | identity {name : Text} : IsIdentifier name → IsSelectorWord ('#' :: name)

/-- A word of a value: a name, a hash, a reference or a colour with decimal components. -/
inductive IsValueWord : Text → Prop
  | name {name : Text} : IsIdentifier name → IsValueWord name
  | hash {digits : Text} : digits ≠ [] → (∀ c ∈ digits, c.isAlphanum = true) →
      IsValueWord ('#' :: digits)
  | reference {name : Text} : IsVariableName name → IsValueWord ("var(".toList ++ name ++ [')'])
  | colour {red green blue : Nat} : red ≤ 255 → green ≤ 255 → blue ≤ 255 →
      IsValueWord (rgbText (natural red) (natural green) (natural blue))

/-- Words of a kind with one space between neighbours; there may be none. -/
def AreWords (word : Text → Prop) (w : Text) : Prop :=
  ∃ words, (∀ u ∈ words, word u) ∧ w = joined [' '] words

mutual

/-- An item of plain words in a place where it can stand. -/
def Node.Plain (kind : ItemList) : Node → Prop
  | .rule selector children =>
    kind ≠ .declarations ∧ selector ≠ [] ∧ AreWords IsSelectorWord selector ∧
      PlainAll .declarations children
  | .atBlock name params children =>
    IsIdentifier name ∧ lowercase name ≠ "charset".toList ∧ AreWords IsIdentifier params ∧
      PlainAll (if holdsRules name then .rules else .declarations) children
  | .atStatement name params =>
    IsIdentifier name ∧ lowercase name ≠ "charset".toList ∧ AreWords IsIdentifier params
  | .declaration d =>
    kind = .declarations ∧ (IsIdentifier d.property ∨ IsVariableName d.property) ∧
      AreWords IsValueWord d.value
  | .comment text => trim text = text ∧ ¬"*/".toList <:+: text

/-- Items that are all plain. -/
def PlainAll (kind : ItemList) : List Node → Prop
  | [] => True
  | n :: rest => n.Plain kind ∧ PlainAll kind rest

end

/-!
### Plain words keep to themselves
-/

theorem isNameChar_of_isIdentChar {c : Char} (inside : isIdentChar c = true) :
    isNameChar c = true ∧ c ≠ '\x00' := by
  refine ⟨?_, ne_of_class inside (by decide)⟩
  simp only [isIdentChar, Char.isAlphanum, Bool.or_eq_true, beq_iff_eq] at inside
  simp only [isNameChar, isNameStart, Bool.or_eq_true, beq_iff_eq]
  rcases inside with ((alpha | digit) | hyphen) | underscore
  · exact Or.inl (Or.inl (Or.inl (Or.inl (Or.inl alpha))))
  · exact Or.inl (Or.inr digit)
  · exact Or.inr hyphen
  · exact Or.inl (Or.inl (Or.inl (Or.inl (Or.inr underscore))))

theorem isNameStart_of_isAlpha {c : Char} (alpha : c.isAlpha = true) :
    isNameStart c = true := by
  simp [isNameStart, alpha]

theorem IsIdentifier.isName {name : Text} (identifier : IsIdentifier name) : IsName name := by
  obtain ⟨start, all⟩ := identifier
  refine ⟨?_, fun d member => isNameChar_of_isIdentChar (all d member)⟩
  rw [startsIdentifier.eq_def] at start
  split at start
  next c rest => simp [startsName, isNameStart_of_isAlpha start]
  next c rest other => exact startsName_of_isNameStart rest (isNameStart_of_isAlpha start)
  next => cases start

theorem IsVariableName.isName {name : Text} (variableName : IsVariableName name) :
    IsName name := by
  obtain ⟨stem, -, all, rfl⟩ := variableName
  refine ⟨rfl, fun d member => isNameChar_of_isIdentChar ?_⟩
  rcases List.mem_cons.mp member with rfl | member
  · rfl
  · rcases List.mem_cons.mp member with rfl | member
    · rfl
    · exact all d member

theorem IsSelectorWord.phrase {u : Text} (word : IsSelectorWord u) (commas : Bool) :
    ∃ ts, Phrase commas u ts := by
  cases word with
  | element identifier => exact ⟨_, phrase_ident identifier.isName⟩
  | class_ identifier => exact ⟨_, phrase_point identifier.isName⟩
  | state identifier => exact ⟨_, phrase_colon identifier.isName⟩
  | identity identifier => exact ⟨_, phrase_idHash identifier.isName⟩

/-- A hash of letters and digits is a phrase, whatever it starts with. -/
theorem phrase_alphanum {commas : Bool} {digits : Text} (nonempty : digits ≠ [])
    (all : ∀ c ∈ digits, c.isAlphanum = true) : ∃ ts, Phrase commas ('#' :: digits) ts := by
  have chars : ∀ c ∈ digits, isNameChar c = true ∧ c ≠ '\x00' := fun c member =>
    isNameChar_of_isIdentChar (by simp [isIdentChar, all c member])
  obtain ⟨c, rest, rfl⟩ := List.exists_cons_of_ne_nil nonempty
  have first := all c (by simp)
  rw [Char.isAlphanum, Bool.or_eq_true] at first
  rcases first with alpha | digit
  · have start := startsName_of_isNameStart rest (isNameStart_of_isAlpha alpha)
    exact ⟨_, phrase_idHash ⟨start, chars⟩⟩
  · exact ⟨_, phrase_hash digit chars⟩

theorem IsValueWord.phrase {u : Text} (word : IsValueWord u) (commas : Bool) :
    ∃ ts, Phrase commas u ts := by
  cases word with
  | name identifier => exact ⟨_, phrase_ident identifier.isName⟩
  | hash nonempty all => exact phrase_alphanum nonempty all
  | reference name => exact ⟨_, phrase_var name.isName⟩
  | colour red green blue =>
      have small {n : Nat} (bound : n ≤ 255) : n < 10 ^ 6 := Nat.lt_of_le_of_lt bound (by decide)
      exact ⟨_, phrase_rgb (small red) (small green) (small blue)⟩

/-- Words are nothing at all or a phrase. -/
theorem AreWords.phrase {commas : Bool} {word : Text → Prop} {w : Text}
    (phrases : ∀ u, word u → ∃ ts, Phrase commas u ts) (words : AreWords word w) :
    w = [] ∨ ∃ ts, Phrase commas w ts := by
  obtain ⟨list, all, rfl⟩ := words
  by_cases empty : list = []
  · exact Or.inl (by rw [empty]; rfl)
  · exact Or.inr (phrase_joined empty fun u member => phrases u (all u member))

/-- Words keep to themselves and are in their normal spelling. -/
theorem AreWords.framed {word : Text → Prop} {w : Text}
    (phrases : ∀ u, word u → ∃ ts, Phrase true u ts) (words : AreWords word w) {stop : Char}
    (breaks : isBreak stop = true) : FramedText stop w := by
  rcases words.phrase phrases with rfl | ⟨ts, phrase⟩
  · exact framed_nil stop
  · exact phrase.framed breaks

theorem AreWords.normal {commas : Bool} {word : Text → Prop} {w : Text}
    (phrases : ∀ u, word u → ∃ ts, Phrase commas u ts) (words : AreWords word w) :
    respelled commas w = some w := by
  rcases words.phrase phrases with rfl | ⟨ts, phrase⟩
  · exact normal_nil commas
  · exact phrase.normal

theorem isIdentifier_phrase (commas : Bool) (u : Text) (word : IsIdentifier u) :
    ∃ ts, Phrase commas u ts :=
  ⟨_, phrase_ident word.isName⟩

theorem framedSelector_of_words {kind : ItemList} {w : Text} (words : AreWords IsSelectorWord w) :
    FramedSelector kind w where
  toFramedText := words.framed (fun u word => word.phrase true) rfl
  begins := by
    rcases words.phrase fun u word => word.phrase true with rfl | ⟨ts, phrase⟩
    · rw [shape_nil]
      exact nofun
    · rw [phrase.shape_eq]
      exact phrase.begins kind
  whole t member := by
    rcases words.phrase fun u word => word.phrase true with rfl | ⟨ts, phrase⟩
    · rw [shape_nil] at member
      cases member
    · rw [phrase.shape_eq] at member
      exact (phrase.calm t member).1

theorem framedParams_of_words {stop : Char} {w : Text} (breaks : isBreak stop = true)
    (words : AreWords IsIdentifier w) : FramedParams stop w where
  toFramedText := words.framed (isIdentifier_phrase true) breaks
  whole t member := by
    rcases words.phrase (isIdentifier_phrase true) with rfl | ⟨ts, phrase⟩
    · rw [shape_nil] at member
      cases member
    · rw [phrase.shape_eq] at member
      exact ⟨(phrase.calm t member).1, (phrase.calm t member).2.1⟩

/-- A declaration whose value is a phrase keeps to itself. -/
theorem Phrase.framedDeclaration {d : Declaration} {ts : List Tree} (name : IsName d.property)
    (phrase : Phrase true d.value ts) : d.Framed where
  toFramedText := by
    apply phrase.framed
    split <;> rfl
  name := name
  whole t member := by
    rw [phrase.shape_eq] at member
    exact (phrase.calm t member).2

theorem framed_of_words {d : Declaration} (name : IsName d.property)
    (words : AreWords IsValueWord d.value) : d.Framed := by
  rcases words.phrase fun u word => word.phrase true with empty | ⟨ts, phrase⟩
  · refine ⟨?_, name, fun t member => ?_⟩
    · rw [empty]
      exact framed_nil _
    · rw [empty, shape_nil] at member
      cases member
  · exact phrase.framedDeclaration name

mutual

/-- The texts of a plain item keep to themselves. -/
theorem Node.Plain.framed {kind : ItemList} {n : Node} (plain : n.Plain kind) :
    n.Framed kind := by
  cases n with
  | rule selector children =>
      obtain ⟨rules, -, words, inner⟩ := plain
      exact ⟨rules, framedSelector_of_words words, PlainAll.framed inner⟩
  | atBlock name params children =>
      obtain ⟨identifier, -, words, inner⟩ := plain
      exact ⟨identifier.isName, framedParams_of_words rfl words, PlainAll.framed inner⟩
  | atStatement name params =>
      obtain ⟨identifier, -, words⟩ := plain
      exact ⟨identifier.isName, framedParams_of_words rfl words⟩
  | declaration d =>
      obtain ⟨declarations, name, words⟩ := plain
      have isName : IsName d.property := by
        rcases name with identifier | variableName
        · exact identifier.isName
        · exact variableName.isName
      exact ⟨declarations, framed_of_words isName words⟩
  | comment text =>
      obtain ⟨trimmed, inside⟩ := plain
      exact ⟨trimmed, closesComment_iff.mpr inside⟩

theorem PlainAll.framed {kind : ItemList} {nodes : List Node} (plain : PlainAll kind nodes) :
    FramedAll kind nodes := by
  cases nodes with
  | nil => trivial
  | cons n rest => exact ⟨plain.1.framed, PlainAll.framed plain.2⟩

end

mutual

/-- The texts of a plain item are in their normal spelling. -/
theorem Node.Plain.normal (commas : Bool) {kind : ItemList} {n : Node} (plain : n.Plain kind) :
    NormalAll commas [n] := by
  cases n with
  | rule selector children =>
      obtain ⟨-, -, words, inner⟩ := plain
      have text := words.normal fun u word => word.phrase commas
      exact allTexts_rule.mpr ⟨text, PlainAll.normal commas inner⟩
  | atBlock name params children =>
      obtain ⟨-, -, words, inner⟩ := plain
      have text := words.normal (isIdentifier_phrase commas)
      exact allTexts_atBlock.mpr ⟨text, PlainAll.normal commas inner⟩
  | atStatement name params =>
      exact allTexts_atStatement.mpr (plain.2.2.normal (isIdentifier_phrase commas))
  | declaration d =>
      exact allTexts_declaration.mpr (plain.2.2.normal fun u word => word.phrase commas)
  | comment text => exact allTexts_comment text

theorem PlainAll.normal (commas : Bool) {kind : ItemList} {nodes : List Node}
    (plain : PlainAll kind nodes) : NormalAll commas nodes := by
  cases nodes with
  | nil => exact allTexts_nil
  | cons n rest =>
      exact allTexts_cons.mpr ⟨plain.1.normal commas, PlainAll.normal commas plain.2⟩

end

/-- No plain at-rule is the encoding of a sheet. -/
theorem PlainAll.startsEncoding {kind : ItemList} {nodes : List Node}
    (plain : PlainAll kind nodes) : startsEncoding nodes = false := by
  induction nodes with
  | nil => rfl
  | cons n rest ih =>
      cases n with
      | rule selector children => rfl
      | atBlock name params children => exact beq_eq_false_iff_ne.mpr plain.1.2.1
      | atStatement name params => exact beq_eq_false_iff_ne.mpr plain.1.2.1
      | declaration d => rfl
      | comment text => exact ih plain.2

theorem IsSelectorWord.head?_ne {u : Text} (word : IsSelectorWord u) :
    u.head? ≠ some '\uFEFF' := by
  cases word with
  | element identifier =>
      intro mark
      have inside := identifier.2 _ (List.mem_of_mem_head? mark)
      revert inside
      decide
  | class_ identifier => simp
  | state identifier => simp
  | identity identifier => simp

/-- No plain selector starts with a byte order mark. -/
theorem PlainAll.startsMark {kind : ItemList} {nodes : List Node}
    (plain : PlainAll kind nodes) : startsMark nodes = false := by
  refine startsMark.eq_2 nodes fun tail children rest same => ?_
  subst same
  obtain ⟨-, -, ⟨words, all, spelled⟩, -⟩ := plain.1
  cases words with
  | nil => cases spelled
  | cons u words =>
      have word := all u (by simp)
      obtain ⟨ts, phrase⟩ := word.phrase true
      obtain ⟨c, u, rfl⟩ := List.exists_cons_of_ne_nil phrase.nonempty.1
      have first : c ≠ '\uFEFF' := fun same => word.head?_ne (congrArg some same)
      have start : ∃ more, joined [' '] ((c :: u) :: words) = c :: more := by
        cases words with
        | nil => exact ⟨u, rfl⟩
        | cons v words => exact ⟨_, rfl⟩
      obtain ⟨more, start⟩ := start
      rw [start] at spelled
      exact first (List.cons.inj spelled).1.symm

/-- A plain sheet keeps to itself as a whole. -/
theorem PlainAll.framedSheet {nodes : List Node} (plain : PlainAll .sheet nodes) :
    FramedSheet nodes :=
  ⟨plain.framed, plain.startsEncoding, plain.startsMark⟩

mutual

theorem Node.Plain.withoutComments {kind : ItemList} {n : Node} (plain : n.Plain kind) :
    n.withoutComments.Plain kind := by
  cases n with
  | rule selector children =>
      obtain ⟨rules, nonempty, words, inner⟩ := plain
      exact ⟨rules, nonempty, words, PlainAll.withoutComments inner⟩
  | atBlock name params children =>
      obtain ⟨identifier, other, words, inner⟩ := plain
      exact ⟨identifier, other, words, PlainAll.withoutComments inner⟩
  | atStatement name params => exact plain
  | declaration d => exact plain
  | comment text => exact plain

theorem PlainAll.withoutComments {kind : ItemList} {nodes : List Node}
    (plain : PlainAll kind nodes) : PlainAll kind (withoutComments nodes) := by
  cases nodes with
  | nil => trivial
  | cons n rest =>
      rw [Swatch.withoutComments]
      split
      next => exact PlainAll.withoutComments plain.2
      next => exact ⟨plain.1.withoutComments, PlainAll.withoutComments plain.2⟩

end

/-!
### The assembled sheet
-/

theorem printItem_ne_nil (s : FormatSettings) (depth : Nat) (n : Node) :
    printItem s depth n ≠ [] := by
  cases n with
  | rule selector children =>
      rw [printItem]
      simp
  | atBlock name params children =>
      rw [printItem]
      simp
  | atStatement name params =>
      rw [printItem]
      simp
  | declaration d =>
      rw [printItem]
      refine List.append_ne_nil_of_right_ne_nil _ ?_
      delta Declaration.text
      exact List.append_ne_nil_of_right_ne_nil _ (by decide)
  | comment text =>
      rw [printItem]
      simp

/-- Behind a block the items are printed as at the start of a list, with an empty line before
them. -/
theorem printItems_after_block (s : FormatSettings) (depth : Nat) {block : Node}
    (isBlock : block.isBlock = true) (nodes : List Node) :
    printItems s depth (some block) nodes =
      if (printItems s depth none nodes).isEmpty then []
      else (if s.blankLines then ['\n'] else []) ++ printItems s depth none nodes := by
  induction nodes with
  | nil => rfl
  | cons n rest ih =>
      rw [printItems, printItems]
      split
      next => exact ih
      next =>
        have gap : s.gap (some block) n = if s.blankLines then ['\n'] else [] := by
          simp [FormatSettings.gap, separates, isBlock]
        have start : s.gap none n = [] := rfl
        have text : (printItem s depth n ++ printItems s depth (some n) rest).isEmpty = false := by
          simp [printItem_ne_nil]
        rw [gap, start, List.nil_append, text, List.append_assoc]
        rfl

/-- Assembling is printing the rule of the variables in front of the sheet. -/
theorem assemble_eq_print (n : VariableSettings) (s : FormatSettings) (groups : List Group)
    (nodes : List Node) : assemble n s groups nodes = print s (rootRule n groups :: nodes) := by
  have comment : (rootRule n groups).isComment = false := rfl
  have block : (rootRule n groups).isBlock = true := rfl
  simp only [assemble, print, printItems, comment, Bool.and_false, Bool.false_eq_true, if_false,
    List.append_nil, printItems_after_block s 0 block]
  rfl

/-!
### Reading undoes printing
-/

/-- Every sheet of plain words is read from what it is printed as, whatever the layout is and
whether or not commas get the normal spacing; comments that the settings leave out are missing.
A sheet that starts with the rule of the variables is also read from what is assembled. -/
theorem parse_print_plain (s : FormatSettings) (commas : Bool) (nodes : List Node)
    (valid : s.validate = .ok ()) (plain : PlainAll .sheet nodes) :
    parse commas (print s nodes) =
        .ok (if s.stripComments then withoutComments nodes else nodes) ∧
      ∀ n groups rest, nodes = rootRule n groups :: rest →
        parse commas (assemble n s groups rest) =
          .ok (if s.stripComments then withoutComments nodes else nodes) := by
  have shown : PlainAll .sheet (visible s nodes) := by
    rw [visible]
    split
    next => exact plain.withoutComments
    next => exact plain
  have read : parse commas (print s nodes) = .ok (visible s nodes) := by
    rw [← print_visible]
    exact parse_print valid rfl shown.framedSheet (shown.normal commas)
  refine ⟨read, fun n groups rest same => ?_⟩
  rw [assemble_eq_print, ← same]
  exact read

/-- A sheet with a comment, a statement and a nested rule. -/
def plainSheet : List Node :=
  [.comment "theme".toList, .atStatement "import".toList "base print".toList,
    .atBlock "media".toList "screen".toList
      [.rule ".card a".toList
        [.declaration ⟨"--edge".toList, "rgb(0, 128, 255) solid".toList, true⟩]]]

theorem parse_print_plain_plainSheet :
    parse false (print { indent := ['\t'], stripComments := true } plainSheet) =
      .ok (withoutComments plainSheet) := by
  have valid : FormatSettings.validate { indent := ['\t'], stripComments := true } = .ok () :=
    rfl
  have medium : AreWords IsIdentifier "screen".toList :=
    ⟨["screen".toList], List.forall_mem_singleton.mpr (by decide), rfl⟩
  have params : AreWords IsIdentifier "base print".toList :=
    ⟨["base".toList, "print".toList], by decide, rfl⟩
  have element : IsSelectorWord ['a'] := .element (by decide)
  have card : IsSelectorWord ('.' :: "card".toList) := .class_ (by decide)
  have selector : AreWords IsSelectorWord ".card a".toList :=
    ⟨[".card".toList, ['a']], List.forall_mem_cons.mpr
      ⟨card, List.forall_mem_singleton.mpr element⟩, rfl⟩
  have colour : IsValueWord (rgbText (natural 0) (natural 128) (natural 255)) :=
    .colour (by decide) (by decide) (by decide)
  have word : IsValueWord "solid".toList := .name (by decide)
  have value : AreWords IsValueWord "rgb(0, 128, 255) solid".toList :=
    ⟨["rgb(0, 128, 255)".toList, "solid".toList], List.forall_mem_cons.mpr
      ⟨colour, List.forall_mem_singleton.mpr word⟩, rfl⟩
  have property : IsVariableName "--edge".toList :=
    ⟨"edge".toList, by decide, List.all_eq_true.mp (by decide), rfl⟩
  have plain : PlainAll .sheet plainSheet :=
    ⟨⟨by decide, by decide⟩, ⟨by decide, by decide, params⟩,
      ⟨by decide, by decide, medium,
        ⟨nofun, by decide, selector, ⟨rfl, Or.inr property, value⟩, trivial⟩, trivial⟩, trivial⟩
  exact (parse_print_plain _ false plainSheet valid plain).1

end Swatch
