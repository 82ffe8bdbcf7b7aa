/-
Module: Swatch.Proofs.Hosting
Purpose: The rule of the variables is read from what it is printed as, below every selector that
  ends where its block begins.
Main exports:
  blockHead, HostSelector, shape_append_block, parse_print_hosted, plainAll_declarations,
  parse_print_rootRule
-/
import Swatch.Proofs.Canonical
import Swatch.Proofs.Closing
import Swatch.Proofs.Framing
import Swatch.Proofs.Partition
import Swatch.Proofs.Plain
import Swatch.Proofs.Repetition

namespace Swatch

/-!
### Selectors that host a block

The selector of the variables is printed as it was given.  The settings are only asked for some
character in it that is not blank, so it can end in the middle of a token, hold a block of its
own, or begin another item than a rule.
-/

/-- A selector as it stands before its block: without white space in front of it, and with a
space behind it. -/
def blockHead (selector : Text) : Text := selector.dropWhile isSpace ++ [' ']

/-- A selector that is read again, as `normal`, from the head of the block that is printed behind
it. -/
structure HostSelector (commas : Bool) (selector normal : Text) : Prop where
  /-- No byte order mark is dropped from its start. -/
  unmarked : selector.head? ≠ some '\uFEFF'
  /-- No string, address, comment or escape goes on into the block. -/
  complete : Sealed (blockHead selector)
  /-- No bracket goes on into the block. -/
  closed : openBrackets (blockHead selector) = []
  /-- It begins a rule and nothing else. -/
  begins : (shape (blockHead selector)).head?.any (Tree.beginsRule .sheet) = true
  /-- It has no block of its own. -/
  whole : ∀ t ∈ shape (blockHead selector), t.isBraces = false
  spelled : normalizeValue commas selector = .ok normal
  /-- Its spelling is the same at the end of a text and before the space that is printed behind it.
  Of the selectors that the other conditions admit, this leaves out those that end in a backslash
  of their own, which hides that space. -/
  settled : normalizeValue commas (blockHead selector) = .ok normal

/-- At the end of a text such a backslash stands for the replacement character, and before a space
for the space. -/
example :
    (normalizeValue true "a\\".toList).toOption = some "a\uFFFD".toList ∧
      (normalizeValue true (blockHead "a\\".toList)).toOption = some "a\\ ".toList := by
  decide +kernel

/-- A selector that begins a rule is more than white space. -/
theorem HostSelector.dropWhile_ne_nil {commas : Bool} {selector normal : Text}
    (host : HostSelector commas selector normal) : selector.dropWhile isSpace ≠ [] := by
  intro blank
  have head : blockHead selector = [' '] := by rw [blockHead, blank, List.nil_append]
  have trees : shape [' '] = [space] := shape_of_forms (forms_space [] rfl)
  have begins := host.begins
  rw [head, trees] at begins
  cases begins

/-!
### The trees of a head and its block
-/

/-- A complete text that closes what it opens forms its own trees in front of a block. -/
theorem foldl_push_append {s rest : Text} {ts : List Tree} (complete : Sealed s)
    (closed : openBrackets s = []) (forms : Forms ('\x7b' :: rest) [] ts) :
    ((tokens (s ++ '\x7b' :: rest)).map Token.bare).foldl Nesting.push {} =
      ⟨[], (shape s ++ ts).reverse⟩ := by
  have front : ((tokens s).map Token.bare).foldl Nesting.push {} = ⟨[], (shape s).reverse⟩ := by
    have formed := foldl_push_shape s
    rw [closed, List.map_nil, List.append_nil] at formed
    exact formed
  obtain ⟨read, readTokens, formed⟩ := forms
  have back : tokens ('\x7b' :: rest) = read := by
    rw [readTokens, tokens_nil, List.append_nil]
  have sheet : InBraces [] := nofun
  rw [tokens_append_sealed (by decide) rfl complete, List.map_append, List.foldl_append, front,
    back, formed [] _ sheet, List.reverse_append]

/-- White space in front of a text adds at most one tree. -/
theorem shape_behind_space {s : Text} {ts : List Tree}
    (formed : ((tokens (s.dropWhile isSpace)).map Token.bare).foldl Nesting.push {} =
      ⟨[], ts.reverse⟩) : shape s = ts ∨ shape s = space :: ts := by
  cases s with
  | nil => exact Or.inl (shape_of_foldl formed)
  | cons c s =>
      cases blank : isSpace c with
      | true =>
          right
          rw [List.dropWhile_cons_of_pos blank] at formed
          have below : ((tokens (s.dropWhile isSpace)).map Token.bare).foldl Nesting.push
              (Nesting.inside [] [space] {}) = ⟨[], ts.reverse ++ [space]⟩ := by
            rw [foldl_push_below, formed]
            rfl
          apply shape_of_foldl
          rw [tokens_space s blank, List.reverse_cons]
          exact below
      | false =>
          rw [dropWhile_of_stops (stops_cons.mpr blank)] at formed
          exact Or.inl (shape_of_foldl formed)

/-!
### Reading a printed rule
-/

section Rule

variable {commas : Bool} {s : FormatSettings} {selector normal : Text} {children : List Node}

/-- A rule by itself is printed as its selector and its block. -/
theorem print_rule (s : FormatSettings) (selector : Text) (children : List Node) :
    print s [.rule selector children] = selector ++ ' ' :: '\x7b' :: '\n' ::
      (printItems s 1 none children ++ (s.margin 0 ++ ['\x7d', '\n'])) := by
  have rule := printItem_rule (s := s) 0 selector children []
  have first : s.gap none (.rule selector children) = [] := rfl
  have shown : (Node.rule selector children).isComment = false := rfl
  have margin : s.margin 0 = [] := rfl
  rw [margin, List.nil_append, List.append_nil] at rule
  rw [print, printItems, shown, Bool.and_false, if_neg Bool.false_ne_true, first, rule]
  exact List.append_nil _

/-- The trees of a selector that hosts a block and of its block are read as one rule. -/
theorem readItems_hosted (host : HostSelector commas selector normal)
    {inner : List Tree} {nodes : List Node} {fresh : Bool}
    (inside : (readItems commas .declarations {} (.start .declarations) inner).toOption =
      some nodes) :
    (readItems commas .sheet {} (.between true fresh)
      (shape (blockHead selector) ++ [braces inner, space])).toOption =
        some [.rule normal nodes] := by
  have text : (writeValue commas (shape (blockHead selector))).toOption = some normal :=
    toOption_eq_some.mpr (writeValue_shape.mpr host.settled)
  have begins := host.begins
  have whole := host.whole
  cases trees : shape (blockHead selector) with
  | nil =>
      rw [trees] at begins
      cases begins
  | cons t ts =>
      rw [trees] at begins whole text
      obtain ⟨first, others⟩ := List.forall_mem_cons.mp whole
      have rules : ItemList.sheet ≠ .declarations := nofun
      have begun : readTree commas .sheet (.between true fresh) t = .ok (.rule [t], []) :=
        readTree_begin_rule rules begins first
      have role : blockRole .sheet (.rule (ts.reverse ++ [t])) .curly = .rule (t :: ts) := by
        rw [blockRole, List.reverse_append, List.reverse_reverse]
        rfl
      have last : (readItems commas .sheet {} .next [space]).toOption = some [] :=
        congrArg Except.toOption (readItems_space true false [])
      rw [List.cons_append, readItems_step _ begun, readItems_selector others, braces,
        readItems_item (toOption_readTree_rule role _ inner {} true), text, inside, last]
      rfl

/-- A rule is read from what it is printed as, if its selector hosts its block and its children
keep to themselves. -/
theorem parse_print_hosted (valid : s.validate = .ok ()) (keeps : s.stripComments = false)
    (host : HostSelector commas selector normal) (framed : FramedAll .declarations children)
    (written : NormalAll commas children) :
    parse commas (print s [.rule selector children]) = .ok [.rule normal children] := by
  have inside : (readItems commas .declarations {} (.start .declarations)
      (space :: layoutAll children)).toOption = some children :=
    (congrArg Except.toOption (readItems_space true false _)).trans
      ((readItems_layoutAll framed nofun).trans ((respellAll_eq_self children).mpr written))
  have block : Forms ('\x7b' :: '\n' :: (printItems s 1 none children ++
      (s.margin 0 ++ ['\x7d', '\n']))) [] [braces (space :: layoutAll children), space] :=
    forms_braces valid 0 (forms_printItems valid keeps 1 none framed _)
  have head (tail : Text) : (selector ++ ' ' :: '\x7b' :: tail).dropWhile isSpace =
      blockHead selector ++ '\x7b' :: tail := by
    have dark := host.dropWhile_ne_nil
    rw [List.dropWhile_append, if_neg (by simpa using dark), blockHead, List.append_assoc,
      List.singleton_append]
  have unmarked : dropMark (print s [.rule selector children]) =
      print s [.rule selector children] := by
    rw [print_rule]
    cases selector with
    | nil => rfl
    | cons c selector =>
        have plain : c ≠ '\uFEFF' := fun mark => host.unmarked (congrArg some mark)
        simp [dropMark, plain]
  have formed := foldl_push_append host.complete host.closed block
  rw [← head, ← print_rule] at formed
  rw [← toOption_eq_some, toOption_parse, unmarked]
  rcases shape_behind_space formed with same | same
  · rw [same]
    exact readItems_hosted host inside
  · rw [same]
    exact (congrArg Except.toOption (readItems_space true true _)).trans
      (readItems_hosted host inside)

end Rule

/-!
### The declarations of the variables
-/

/-- A name that usable settings give is the name of a variable. -/
theorem isVariableName_name {s : VariableSettings} (valid : s.validate = .ok ()) (i : Nat) :
    IsVariableName (s.name i) := by
  have spelled : s.name i = '-' :: '-' :: (s.stem ++ '-' :: natural i) := by
    delta VariableSettings.name
    simp
  refine ⟨s.stem ++ '-' :: natural i, by simp, ?_, spelled⟩
  intro c member
  have inside : c ∈ s.name i := by
    rw [spelled]
    exact List.mem_cons_of_mem _ (List.mem_cons_of_mem _ member)
  exact isStemChar_name valid i c inside

/-- The text of a colour is a word of a value. -/
theorem isValueWord_text (color : Color) : IsValueWord color.text := by
  obtain ⟨digits, spelled, six, lower⟩ := isKey_text color
  have nonempty : digits ≠ [] := by
    rintro rfl
    cases six
  have alphanumeric : ∀ c ∈ digits, c.isAlphanum = true := by
    intro c member
    have digit := isLowerHexDigit_iff.mp (lower c member)
    rw [Char.isAlphanum, Bool.or_eq_true, isAlpha_iff, isDigit_iff]
    omega
  rw [spelled]
  exact .hash nonempty alphanumeric

/-!
### The comments with the literals
-/

/-- A text with a character at either end that is not blank. -/
structure IsSolid (w : Text) : Prop where
  nonempty : w ≠ []
  start : Stops isBlank w
  stop : Stops isBlank w.reverse

/-- A solid text is trimmed already. -/
theorem IsSolid.trim_eq {w : Text} (solid : IsSolid w) : trim w = w := by
  rw [trim, trimStart, dropWhile_of_stops solid.start, trimEnd, dropWhile_of_stops solid.stop,
    List.reverse_reverse]

/-- What is between two solid texts does not count. -/
theorem IsSolid.append {u v : Text} (front : IsSolid u) (middle : Text) (back : IsSolid v) :
    IsSolid (u ++ middle ++ v) := by
  have keeps {w : Text} (nonempty : w ≠ []) (stops : Stops isBlank w) (rest : Text) :
      Stops isBlank (w ++ rest) := by
    obtain ⟨c, w, rfl⟩ := List.exists_cons_of_ne_nil nonempty
    exact stops
  have reversed : v.reverse ≠ [] := fun empty => back.nonempty (List.reverse_eq_nil_iff.mp empty)
  constructor
  · simp [front.nonempty]
  · rw [List.append_assoc]
    exact keeps front.nonempty front.start _
  · rw [List.reverse_append]
    exact keeps reversed back.stop _

theorem isSolid_joined {separator : Text} {words : List Text} (nonempty : words ≠ [])
    (solid : ∀ w ∈ words, IsSolid w) : IsSolid (joined separator words) := by
  induction words with
  | nil => exact absurd rfl nonempty
  | cons w rest ih =>
      obtain ⟨first, others⟩ := List.forall_mem_cons.mp solid
      cases rest with
      | nil => exact first
      | cons v rest => exact first.append separator (ih (List.cons_ne_nil v rest) others)

theorem notMem_joined {c : Char} {separator : Text} {words : List Text} (apart : c ∉ separator)
    (absent : ∀ w ∈ words, c ∉ w) : c ∉ joined separator words := by
  induction words with
  | nil => exact List.not_mem_nil
  | cons w rest ih =>
      obtain ⟨first, others⟩ := List.forall_mem_cons.mp absent
      cases rest with
      | nil => exact first
      | cons v rest => simp [joined, first, apart, ih others]

theorem IsLiteral.isSolid {v : Text} (literal : IsLiteral v) : IsSolid v := by
  rcases literal with ⟨digits, rfl, -, hex⟩ | ⟨red, green, blue, -, -, -, rfl⟩
  · have dark : ∀ c ∈ digits.reverse, isBlank c = false :=
      fun c member => isBlank_of_isHexDigit (hex c (List.mem_reverse.mp member))
    have stop : Stops isBlank ('#' :: digits).reverse := by
      rw [List.reverse_cons]
      exact stops_append (stops_of_forall dark) rfl
    exact ⟨List.cons_ne_nil '#' digits, rfl, stop⟩
  · have stop (front : Text) : Stops isBlank (front ++ [')']).reverse := by
      rw [List.reverse_append]
      rfl
    delta rgbText
    exact ⟨by simp, rfl, stop _⟩

theorem IsLiteral.notMem_star {v : Text} (literal : IsLiteral v) : '*' ∉ v := by
  rcases literal with ⟨digits, rfl, -, hex⟩ | ⟨red, green, blue, hred, hgreen, hblue, rfl⟩
  · have absent : '*' ∉ digits := fun inside => absurd (hex '*' inside) (by decide)
    simp [absent]
  · have absent {digits : Text} (run : IsDigitRun digits) : '*' ∉ digits :=
      fun inside => absurd (run.2 '*' inside) (by decide)
    delta rgbText
    simp [absent hred, absent hgreen, absent hblue]

/-- A list of literals ends no comment, and is read as it stands in one. -/
theorem plain_provenance {g : Group} (literals : ∀ t ∈ g.tokens, IsLiteral t) (kind : ItemList) :
    (Node.comment g.provenance).Plain kind := by
  constructor
  · by_cases empty : g.tokens = []
    · rw [Group.provenance, empty]
      rfl
    · exact (isSolid_joined empty fun t member => (literals t member).isSolid).trim_eq
  · intro closes
    have star : '*' ∈ g.provenance := closes.subset (by decide)
    exact notMem_joined (by decide) (fun t member => (literals t member).notMem_star) star

/-!
### The rule of the variables
-/

theorem plainAll_of_forall {kind : ItemList} {nodes : List Node}
    (all : ∀ n ∈ nodes, n.Plain kind) : PlainAll kind nodes := by
  induction nodes with
  | nil => trivial
  | cons n rest ih =>
      obtain ⟨first, others⟩ := List.forall_mem_cons.mp all
      exact ⟨first, ih others⟩

/-- The declarations of variables with usable names, and the comments with their literals, are
plain items. -/
theorem plainAll_declarations {s : VariableSettings} (valid : s.validate = .ok ())
    {groups : List Group} (named : ∀ g ∈ groups, g.name = s.name g.index)
    (literals : ∀ g ∈ groups, ∀ t ∈ g.tokens, IsLiteral t) :
    PlainAll .declarations (groups.flatMap (Group.declarations s)) := by
  apply plainAll_of_forall
  intro n member
  obtain ⟨g, found, part⟩ := List.mem_flatMap.mp member
  have name : IsVariableName g.name := by
    rw [named g found]
    exact isVariableName_name valid g.index
  have value : AreWords IsValueWord g.color.text :=
    ⟨[g.color.text], List.forall_mem_singleton.mpr (isValueWord_text g.color), rfl⟩
  rcases List.mem_append.mp part with comment | declaration
  · split at comment
    next =>
      rw [List.mem_singleton.mp comment]
      exact plain_provenance (literals g found) .declarations
    next => cases comment
  · rw [List.mem_singleton.mp declaration]
    exact ⟨rfl, Or.inr name, value⟩

/-- The groups of a list of texts stand in the order of their numbers. -/
theorem map_index_buildGroups (s : VariableSettings) (resolve : Resolver) (tokens : List Text) :
    (buildGroups s resolve tokens).groups.map Group.index =
      List.range (buildGroups s resolve tokens).groups.length := by
  apply List.ext_getElem
  · simp
  · intro i bound _
    rw [List.length_map] at bound
    have place := List.getElem?_eq_getElem bound
    rw [List.getElem_map, List.getElem_range]
    exact ((partitions_buildGroups s resolve tokens).numbered i _ place).1

/-- The rule of the variables is read from what it is printed as, if the selector of the settings
hosts a block: as one rule with the selector in its normal spelling, and in it for each group, in
the order of the numbers, the literals as a comment, where the settings ask for it, and the
declaration of the variable with the text of the colour. -/
theorem parse_print_rootRule {commas : Bool} {s : VariableSettings} {format : FormatSettings}
    {resolve : Resolver} {tokens : List Text} {groups : List Group} {normal : Text}
    (valid : s.validate = .ok ()) (usable : format.validate = .ok ())
    (keeps : format.stripComments = false) (host : HostSelector commas s.rootSelector normal)
    (extracted : ∀ t ∈ tokens, ∃ v, t ∈ valueLiterals v)
    (grouped : (buildGroups s resolve tokens).groups = groups) :
    groups.map Group.index = List.range groups.length ∧
      parse commas (print format [rootRule s groups]) = .ok [.rule normal (groups.flatMap fun g =>
        (if s.provenance then [.comment g.provenance] else []) ++
          [.declaration { property := s.name g.index, value := g.color.text }])] := by
  subst grouped
  have named : ∀ g ∈ (buildGroups s resolve tokens).groups, g.name = s.name g.index := by
    intro g member
    obtain ⟨i, color, -, rfl⟩ := mem_buildGroups.mp member
    rfl
  have literals : ∀ g ∈ (buildGroups s resolve tokens).groups, ∀ t ∈ g.tokens, IsLiteral t := by
    intro g member t inside
    obtain ⟨v, found⟩ := extracted t ((mem_tokens_of_mem member).mp inside).1
    exact isLiteral_of_mem_valueLiterals found
  have plain := plainAll_declarations valid named literals
  have read := parse_print_hosted usable keeps host plain.framed (plain.normal commas)
  have children : (buildGroups s resolve tokens).groups.flatMap (Group.declarations s) =
      (buildGroups s resolve tokens).groups.flatMap fun g =>
        (if s.provenance then [.comment g.provenance] else []) ++
          [.declaration { property := s.name g.index, value := g.color.text }] := by
    apply List.flatMap_congr
    intro g member
    rw [Group.declarations, named g member]
  refine ⟨map_index_buildGroups s resolve tokens, ?_⟩
  rw [← children]
  exact read

/-- A selector with white space at its ends and around its comma. -/
def looseRoot : VariableSettings := { stem := "brand".toList, rootSelector := " html ,:root ".toList }

/-- The rule of two colours below this selector is read with the selector in its normal
spelling. -/
theorem parse_print_rootRule_looseRoot :
    parse true (print { indent := ['\t'] } [rootRule looseRoot (buildGroups looseRoot canonicalize
        ["#f00".toList, "rgb(255, 0, 0)".toList, "#00F".toList]).groups]) =
      .ok [.rule "html, :root".toList
        [.comment "#f00, rgb(255, 0, 0)".toList,
          .declaration { property := "--brand-0".toList, value := "#ff0000".toList },
          .comment "#00F".toList,
          .declaration { property := "--brand-1".toList, value := "#0000ff".toList }]] := by
  have host : HostSelector true looseRoot.rootSelector "html, :root".toList := by
    constructor
    · decide
    · decide +kernel
    · decide +kernel
    · decide +kernel
    · decide +kernel
    · exact toOption_eq_some.mp (by decide +kernel)
    · exact toOption_eq_some.mp (by decide +kernel)
  have extracted : ∀ t ∈ ["#f00".toList, "rgb(255, 0, 0)".toList, "#00F".toList],
      ∃ v, t ∈ valueLiterals v := by
    intro t member
    refine ⟨t, ?_⟩
    revert t
    decide
  have valid : looseRoot.validate = .ok () := by decide
  have usable : FormatSettings.validate { indent := ['\t'] } = .ok () := rfl
  have grouped : (buildGroups looseRoot canonicalize
      ["#f00".toList, "rgb(255, 0, 0)".toList, "#00F".toList]).groups =
        [⟨0, ⟨255, 0, 0⟩, ["#f00".toList, "rgb(255, 0, 0)".toList], "--brand-0".toList⟩,
          ⟨1, ⟨0, 0, 255⟩, ["#00F".toList], "--brand-1".toList⟩] := by
    decide +kernel
  obtain ⟨-, read⟩ := parse_print_rootRule valid usable rfl host extracted grouped
  rw [grouped]
  exact read

/-- A selector that is not blank and has a block of its own. -/
def ownBlock : VariableSettings := { rootSelector := "a\x7b\x7db".toList }

/-- The check of the settings accepts a selector that hosts no block: the printed rule is read as
two, and neither of them has the selector. -/
theorem parse_print_rootRule_ownBlock :
    ownBlock.validate = .ok () ∧ FormatSettings.validate {} = .ok () ∧
      "#f00".toList ∈ valueLiterals "#f00".toList ∧
      normalizeValue true ownBlock.rootSelector = .ok ownBlock.rootSelector ∧
      parse true (print {} [rootRule ownBlock
          (buildGroups ownBlock canonicalize ["#f00".toList]).groups]) =
        .ok [.rule ['a'] [], .rule ['b'] [.comment "#f00".toList,
          .declaration { property := "--color-0".toList, value := "#ff0000".toList }]] := by
  refine ⟨by decide, by decide, by decide, ?_, ?_⟩
  · exact toOption_eq_some.mp (by decide +kernel)
  · exact toOption_eq_some.mp (by decide +kernel)

end Swatch
