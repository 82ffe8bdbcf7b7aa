/-
Module: Swatch.Proofs.Denotation
Purpose: Every literal that is found in a sheet denotes an opaque colour, the one that its digits
  spell, with components cut off at 255.
Main exports:
  Denotes, denotes_of_isLiteral, rgbColor_of_shape, canonicalize_of_denotes,
  extracted_literals_resolve
-/
import Swatch.Proofs.Partition
import Swatch.Proofs.Phrase
import Swatch.Proofs.Replacement
import Swatch.Proofs.Saturation

namespace Swatch

/-!
### What a literal denotes

Literals are found by one grammar and resolved by two others, so what they denote is stated apart
from all three.
-/

/-- The components of a colour as numbers. -/
def Color.levels (c : Color) : Nat × Nat × Nat := (c.red.val, c.green.val, c.blue.val)

/-- The number that two hexadecimal digits spell. -/
def pairValue (high low : Char) : Nat := 16 * hexValue high + hexValue low

/-- A component in two lowercase hexadecimal digits. -/
def pairText (n : Nat) : Text := [Nat.digitChar (n / 16), Nat.digitChar (n % 16)]

/-- The component that a run of decimal digits stands for: nothing is brighter than 255. -/
def cutOff (digits : Text) : Nat := min (digitsValue digits) 255

/-- The components that a literal denotes, and the key of their colour. -/
inductive Denotes : Text → Nat × Nat × Nat → Text → Prop where
  /-- Each of three digits stands for two equal ones. -/
  | short {r g b : Char} (digits : ∀ c ∈ [r, g, b], isHexDigit c = true) :
      Denotes ['#', r, g, b] (pairValue r r, pairValue g g, pairValue b b)
        (lowercase ['#', r, r, g, g, b, b])
  | long {r r' g g' b b' : Char} (digits : ∀ c ∈ [r, r', g, g', b, b'], isHexDigit c = true) :
      Denotes ['#', r, r', g, g', b, b'] (pairValue r r', pairValue g g', pairValue b b')
        (lowercase ['#', r, r', g, g', b, b'])
  | decimal {red green blue : Text} (r : IsDigitRun red) (g : IsDigitRun green)
      (b : IsDigitRun blue) :
      Denotes (rgbText red green blue) (cutOff red, cutOff green, cutOff blue)
        ('#' :: (pairText (cutOff red) ++ pairText (cutOff green) ++ pairText (cutOff blue)))

/-- Every literal denotes something. -/
theorem denotes_of_isLiteral {t : Text} (literal : IsLiteral t) :
    ∃ levels key, Denotes t levels key := by
  rcases literal with ⟨digits, rfl, count, all⟩ | ⟨red, green, blue, r, g, b, rfl⟩
  · rcases count with three | six
    · obtain ⟨r, g, b, rfl⟩ := List.length_eq_three.mp three
      exact ⟨_, _, .short all⟩
    · match digits, six with
      | [r, r', g, g', b, b'], _ => exact ⟨_, _, .long all⟩
  · exact ⟨_, _, .decimal r g b⟩

/-!
### Hexadecimal digits
-/

/-- A hexadecimal digit is the lowercase digit of its value. -/
theorem hexValue_spec {c : Char} (digit : isHexDigit c = true) :
    hexValue c < 16 ∧ Nat.digitChar (hexValue c) = c.toLower := by
  have ascii : ∀ n < 128, isHexDigit (Char.ofNat n) = true →
      hexValue (Char.ofNat n) < 16 ∧
        Nat.digitChar (hexValue (Char.ofNat n)) = (Char.ofNat n).toLower := by
    decide +kernel
  have code : c.toNat < 128 := by
    rw [isHexDigit_iff] at digit
    omega
  have spec := ascii c.toNat code
  rw [Char.ofNat_toNat] at spec
  exact spec digit

theorem channelOf_spec {high low : Char} (first : isHexDigit high = true)
    (second : isHexDigit low = true) :
    (channelOf high low).val = pairValue high low ∧
      channelText (channelOf high low) = [high.toLower, low.toLower] := by
  obtain ⟨highBound, highText⟩ := hexValue_spec first
  obtain ⟨lowBound, lowText⟩ := hexValue_spec second
  have value : (channelOf high low).val = pairValue high low := by
    show (16 * hexValue high + hexValue low) % 256 = 16 * hexValue high + hexValue low
    omega
  refine ⟨value, ?_⟩
  have quotient : pairValue high low / 16 = hexValue high := by
    rw [pairValue]
    omega
  have rest : pairValue high low % 16 = hexValue low := by
    rw [pairValue]
    omega
  rw [channelText, value, quotient, rest, highText, lowText]

/-- A hash with hexadecimal digits has no blanks around it. -/
theorem trim_hash {digits : Text} (nonempty : digits ≠ [])
    (all : ∀ c ∈ digits, isHexDigit c = true) : trim ('#' :: digits) = '#' :: digits := by
  have last : isHexDigit (digits.getLast nonempty) = true := all _ (List.getLast_mem nonempty)
  have hash : isBlank '#' = false := rfl
  have ends := trim_of_ends digits.dropLast hash (isBlank_of_isHexDigit last)
  rw [List.dropLast_append_getLast nonempty] at ends
  exact ends

theorem canonicalize_hash {digits : Text} (nonempty : digits ≠ [])
    (all : ∀ c ∈ digits, isHexDigit c = true) :
    canonicalize ('#' :: digits) = (hexColor digits).mapError (.invalidHex ('#' :: digits)) := by
  rw [canonicalize, trim_hash nonempty all]
  rfl

/-!
### The `rgb()` function
-/

/-- Three numbers with commas between them are a colour without opacity. -/
theorem rgbArguments_numbers {arguments : List Tree} {red green blue : Numeral}
    (read : arguments.map Tree.token = [.number red, .comma, .number green, .comma, .number blue]) :
    rgbArguments arguments = .ok (⟨red.level, green.level, blue.level⟩, .highest) := by
  obtain ⟨a, arguments, rfl, first, read⟩ := List.map_eq_cons_iff.mp read
  obtain ⟨b, arguments, rfl, comma, read⟩ := List.map_eq_cons_iff.mp read
  obtain ⟨c, arguments, rfl, second, read⟩ := List.map_eq_cons_iff.mp read
  obtain ⟨d, arguments, rfl, comma', read⟩ := List.map_eq_cons_iff.mp read
  obtain ⟨e, arguments, rfl, third, read⟩ := List.map_eq_cons_iff.mp read
  obtain rfl := List.map_eq_nil_iff.mp read
  have channel (n : Numeral) : (Component.number n).channel = n.level := rfl
  simp [rgbArguments, expect, first, comma, second, comma', third, component?, componentLike?,
    exactly?, channel, bind, Except.bind, pure, Except.pure, Functor.map, Except.map]

/-- Trees with the same tokens are blank at the same places. -/
theorem map_token_filter (ts : List Tree) :
    (ts.filter (!·.isBlank)).map Tree.token = (ts.map Tree.token).filter (!·.isBlank) := by
  rw [List.filter_map]
  rfl

theorem map_token_tree (ts : List Token) : (ts.map Token.tree).map Tree.token = ts := by
  have same : Tree.token ∘ Token.tree = id := rfl
  rw [List.map_map, same, List.map_id]

theorem map_token_bare (ts : List Tree) :
    (ts.map Tree.bare).map Tree.token = ts.map Tree.token := by
  rw [List.map_map]
  exact List.map_congr_left fun t _ => Tree.token_bare t

/-- A text that is read as one function is the colour of its arguments, if it is opaque. -/
theorem rgbColor_of_shape {s name : Text} {arguments : List Token} {color : Color}
    {alpha : Channel} (read : shape s = [call name arguments])
    (means : ∀ ts : List Tree, ts.map Tree.token = arguments.filter (!·.isBlank) →
      rgbArguments ts = .ok (color, alpha)) :
    rgbColor s = if alpha = .highest then .ok color else .error .translucent := by
  rw [shape, Tree.bareAll_eq_map] at read
  obtain ⟨t, others, formed, same, none⟩ := List.map_eq_cons_iff.mp read
  obtain rfl := List.map_eq_nil_iff.mp none
  cases t with
  | leaf lexeme => cases same
  | block bracket opener children stop closed =>
      rw [Tree.bare, call, Tree.block.injEq, Tree.bareAll_eq_map] at same
      obtain ⟨-, same, inner, -, -⟩ := same
      have opens : opener.token = .function name := congrArg Lexeme.token same
      have tokens : children.map Tree.token = arguments := by
        rw [← map_token_bare, inner, map_token_tree]
      have dark : Tree.isBlank (.block bracket opener children stop closed) = false := by
        rw [Tree.isBlank, Tree.token, Tree.first, opens]
        rfl
      have argument := means (children.filter (!·.isBlank)) (by rw [map_token_filter, tokens])
      rw [rgbColor, formed]
      simp [dark, argument, bind, Except.bind, pure, Except.pure, throw, throwThe,
        MonadExceptOf.throw]

/-- Three runs of digits are read as three components, each cut off at 255. -/
theorem rgbColor_rgbText {red green blue : Text} (r : IsDigitRun red) (g : IsDigitRun green)
    (b : IsDigitRun blue) :
    rgbColor (rgbText red green blue) =
      .ok ⟨.ofNat (cutOff red), .ofNat (cutOff green), .ofNat (cutOff blue)⟩ := by
  have rgb : IsName "rgb".toList := by decide
  have other : lowercase "rgb".toList ≠ "url".toList := by decide
  have leaves : ∀ t ∈ components red green blue, t.opens? = none ∧ t ≠ .closing .round := by
    simp [components, Token.opens?]
  have spelled : rgbText red green blue = "rgb".toList ++
      '(' :: (red ++ ',' :: ' ' :: (green ++ ',' :: ' ' :: (blue ++ ')' :: []))) := by
    delta rgbText
    simp
  have read : tokens (rgbText red green blue) =
      .function "rgb".toList :: (components red green blue ++ .closing .round :: tokens []) := by
    rw [spelled, tokens_function rgb other, tokens_components r g b]
  have numbers : (components red green blue).filter (!·.isBlank) =
      [.number (digitsNumeral red), .comma, .number (digitsNumeral green), .comma,
        .number (digitsNumeral blue)] := rfl
  rw [rgbColor_of_shape (shape_of_forms (Forms.function read leaves)) fun ts tokens =>
      rgbArguments_numbers (tokens.trans numbers),
    level_digitsNumeral r.2, level_digitsNumeral g.2, level_digitsNumeral b.2]
  rfl

theorem canonicalize_rgbText {red green blue : Text} (r : IsDigitRun red)
    (g : IsDigitRun green) (b : IsDigitRun blue) :
    canonicalize (rgbText red green blue) =
      .ok ⟨.ofNat (cutOff red), .ofNat (cutOff green), .ofNat (cutOff blue)⟩ := by
  have trimmed : trim (rgbText red green blue) = rgbText red green blue :=
    trim_of_ends _ (by decide) (by decide)
  have opened : lowercase ((rgbText red green blue).take 4) = "rgb(".toList := rfl
  rw [canonicalize, trimmed]
  have function : (if lowercase ((rgbText red green blue).take 4) = "rgb(".toList then
      (rgbColor (rgbText red green blue)).mapError (ColorError.invalidRgb (rgbText red green blue))
      else .error (ColorError.unsupported (rgbText red green blue))) =
        .ok ⟨.ofNat (cutOff red), .ofNat (cutOff green), .ofNat (cutOff blue)⟩ := by
    rw [if_pos opened, rgbColor_rgbText r g b]
    rfl
  exact function

/-!
### Resolution
-/

/-- Three pairs of digits spell the levels of a colour and its text. -/
theorem spelled_pairs {r r' g g' b b' : Char}
    (digits : ∀ c ∈ [r, r', g, g', b, b'], isHexDigit c = true) :
    Color.levels ⟨channelOf r r', channelOf g g', channelOf b b'⟩ =
        (pairValue r r', pairValue g g', pairValue b b') ∧
      Color.text ⟨channelOf r r', channelOf g g', channelOf b b'⟩ =
        lowercase ['#', r, r', g, g', b, b'] := by
  have red := channelOf_spec (digits r (by simp)) (digits r' (by simp))
  have green := channelOf_spec (digits g (by simp)) (digits g' (by simp))
  have blue := channelOf_spec (digits b (by simp)) (digits b' (by simp))
  constructor
  · rw [Color.levels, red.1, green.1, blue.1]
  · rw [Color.text, red.2, green.2, blue.2]
    rfl

/-- What is cut off at 255 fits into a component. -/
theorem ofNat_cutOff (digits : Text) : (Channel.ofNat (cutOff digits)).val = cutOff digits := by
  have bound : cutOff digits ≤ 255 := Nat.min_le_right _ _
  exact Nat.mod_eq_of_lt (by omega)

/-- A text that denotes a colour is resolved to it. -/
theorem canonicalize_of_denotes {t key : Text} {levels : Nat × Nat × Nat}
    (denotes : Denotes t levels key) :
    ∃ color, canonicalize t = .ok color ∧ color.levels = levels ∧ color.text = key := by
  cases denotes with
  | @short r g b digits =>
      have resolved : canonicalize ['#', r, g, b] =
          .ok ⟨channelOf r r, channelOf g g, channelOf b b⟩ := by
        rw [canonicalize_hash (List.cons_ne_nil r _) digits, hexColor,
          if_pos (List.all_eq_true.mpr digits)]
        rfl
      have doubled : ∀ c ∈ [r, r, g, g, b, b], isHexDigit c = true := by simpa using digits
      exact ⟨_, resolved, spelled_pairs doubled⟩
  | @long r r' g g' b b' digits =>
      have resolved : canonicalize ['#', r, r', g, g', b, b'] =
          .ok ⟨channelOf r r', channelOf g g', channelOf b b'⟩ := by
        rw [canonicalize_hash (List.cons_ne_nil r _) digits, hexColor,
          if_pos (List.all_eq_true.mpr digits)]
        rfl
      exact ⟨_, resolved, spelled_pairs digits⟩
  | decimal r g b =>
      refine ⟨_, canonicalize_rgbText r g b, ?_, ?_⟩
      · simp only [Color.levels, ofNat_cutOff]
      · simp only [Color.text, channelText, ofNat_cutOff, pairText]

/-- A literal denotes the colour that it is resolved to, and no other. -/
theorem denotes_iff {t : Text} (literal : IsLiteral t) :
    ∃ color, canonicalize t = .ok color ∧
      ∀ levels key, Denotes t levels key ↔ levels = color.levels ∧ key = color.text := by
  obtain ⟨levels, key, denotes⟩ := denotes_of_isLiteral literal
  obtain ⟨color, resolved, rfl, rfl⟩ := canonicalize_of_denotes denotes
  refine ⟨color, resolved, fun levels key => ⟨fun other => ?_, ?_⟩⟩
  · obtain ⟨color', again, rfl, rfl⟩ := canonicalize_of_denotes other
    obtain rfl := Except.ok.inj (resolved.symm.trans again)
    exact ⟨rfl, rfl⟩
  · rintro ⟨rfl, rfl⟩
    exact denotes

/-- A colour is what its levels are. -/
theorem levels_injective {a b : Color} (same : a.levels = b.levels) : a = b := by
  obtain ⟨red, green, blue⟩ := a
  obtain ⟨red', green', blue'⟩ := b
  simp only [Color.levels, Prod.mk.injEq] at same
  obtain ⟨r, g, b⟩ := same
  rw [Fin.ext r, Fin.ext g, Fin.ext b]

/-- A text with a colour is in the group of its colour. -/
theorem exists_group {s : VariableSettings} {resolve : Resolver} {tokens : List Text} {t : Text}
    {color : Color} (met : t ∈ tokens) (denotes : resolve t = .ok color) :
    ∃ g ∈ (buildGroups s resolve tokens).groups, g.color = color ∧ t ∈ g.tokens := by
  obtain ⟨i, place⟩ := List.mem_iff_getElem?.mp (mem_distinctColors.mpr ⟨t, met, denotes⟩)
  exact ⟨_, mem_buildGroups.mpr ⟨i, color, place, rfl⟩, rfl, mem_tokensOf.mpr ⟨met, denotes⟩⟩

/-- Every literal that is found in a value is resolved to the colour that it denotes.  So, with
usable settings, nothing is rejected: every literal of a sheet is in a group, and two of them are
in the same group exactly if they denote the same levels. -/
theorem extracted_literals_resolve :
    (∀ v, ∀ t ∈ valueLiterals v, ∃ color, canonicalize t = .ok color ∧
      ∀ levels key, Denotes t levels key ↔ levels = color.levels ∧ key = color.text) ∧
    ∀ s : VariableSettings, s.validate = .ok () → ∀ nodes,
      ∃ r : Report, deduplicate s canonicalize nodes = .ok r ∧
      r.grouping.rejected = [] ∧
      (∀ t, t ∈ r.tokens ↔ ∃ d ∈ Node.declarationsAll nodes, t ∈ valueLiterals d.value) ∧
      (∀ t ∈ r.tokens, ∃ g ∈ r.grouping.groups, t ∈ g.tokens) ∧
      ∀ t ∈ r.tokens, ∀ u ∈ r.tokens,
        (∃ g ∈ r.grouping.groups, t ∈ g.tokens ∧ u ∈ g.tokens) ↔
          ∃ levels key key', Denotes t levels key ∧ Denotes u levels key' := by
  refine ⟨fun v t member => denotes_iff (isLiteral_of_mem_valueLiterals member), ?_⟩
  intro s valid nodes
  have denoted : ∀ t ∈ literals nodes, ∃ color, canonicalize t = .ok color ∧
      ∀ levels key, Denotes t levels key ↔ levels = color.levels ∧ key = color.text :=
    fun t member => denotes_iff (isLiteral_of_mem_literals member)
  refine ⟨report s canonicalize nodes, deduplicate_of_valid valid nodes, ?_, ?_, ?_, ?_⟩
  · show (buildGroups s canonicalize (literals nodes)).rejected = []
    rw [rejected_buildGroups, faults, List.filterMap_eq_nil_iff]
    intro t member
    obtain ⟨color, resolved, -⟩ := denoted t member
    rw [resolved]
  · intro t
    show t ∈ literals nodes ↔ _
    rw [literals, List.mem_eraseDups, List.mem_flatMap]
  · intro t member
    obtain ⟨color, resolved, -⟩ := denoted t member
    obtain ⟨g, within, -, held⟩ := exists_group (s := s) member resolved
    exact ⟨g, within, held⟩
  · intro t member u other
    obtain ⟨color, resolved, means⟩ := denoted t member
    obtain ⟨color', resolved', means'⟩ := denoted u other
    constructor
    · rintro ⟨g, within, first, second⟩
      have one := ((mem_tokens_of_mem within).mp first).2
      have two := ((mem_tokens_of_mem within).mp second).2
      obtain rfl := Except.ok.inj (resolved.symm.trans one)
      obtain rfl := Except.ok.inj (resolved'.symm.trans two)
      exact ⟨_, _, _, (means _ _).mpr ⟨rfl, rfl⟩, (means' _ _).mpr ⟨rfl, rfl⟩⟩
    · rintro ⟨levels, key, key', first, second⟩
      obtain rfl : color = color' :=
        levels_injective (((means _ _).mp first).1.symm.trans ((means' _ _).mp second).1)
      obtain ⟨g, within, rfl, held⟩ := exists_group (s := s) member resolved
      exact ⟨g, within, held, (mem_tokens_of_mem within).mpr ⟨other, resolved'⟩⟩

/-- A literal with leading zeros and a component that is too large, and another spelling of its
colour. -/
def brightBox : List Node :=
  [.rule ['a'] [.declaration { property := "color".toList, value := "rgb( 0300 ,0,0)".toList },
    .declaration { property := "border".toList, value := "1px solid #F00".toList }]]

/-- Both literals are in the group of red. -/
theorem extracted_literals_resolve_brightBox :
    ∃ r : Report, deduplicate {} canonicalize brightBox = .ok r ∧
      r.grouping.rejected = [] ∧
      ∃ g ∈ r.grouping.groups, "rgb(0300, 0, 0)".toList ∈ g.tokens ∧ "#F00".toList ∈ g.tokens := by
  have valid : VariableSettings.validate {} = .ok () := by decide
  obtain ⟨-, sheets⟩ := extracted_literals_resolve
  obtain ⟨r, done, none, found, -, shared⟩ := sheets {} valid brightBox
  refine ⟨r, done, none, (shared _ ?_ _ ?_).mpr ⟨(255, 0, 0), "#ff0000".toList,
    "#ff0000".toList, ?_, ?_⟩⟩
  · exact (found _).mpr ⟨⟨"color".toList, "rgb( 0300 ,0,0)".toList, false⟩, by decide, by decide⟩
  · exact (found _).mpr ⟨⟨"border".toList, "1px solid #F00".toList, false⟩, by decide, by decide⟩
  · have red : IsDigitRun ['0', '3', '0', '0'] :=
      ⟨List.cons_ne_nil _ _, List.all_eq_true.mp rfl⟩
    have zero : IsDigitRun ['0'] := ⟨List.cons_ne_nil _ _, List.all_eq_true.mp rfl⟩
    exact .decimal red zero zero
  · exact @Denotes.short 'F' '0' '0' (List.all_eq_true.mp rfl)

end Swatch
