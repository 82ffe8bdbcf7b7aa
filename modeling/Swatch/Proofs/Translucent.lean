/-
Module: Swatch.Proofs.Translucent
Purpose: A colour with an opacity is the colour without it if the opacity counts as full, and no
  colour otherwise.
Main exports:
  Between, SpelledColour, SpelledOpacity, canonicalize_spelled, canonicalize_opacity,
  canonicalize_nearlyFull, canonicalize_decimalOpacity
-/
import Swatch.Proofs.Canonical
import Swatch.Proofs.Gaps
import Swatch.Proofs.Neighbours
import Swatch.Proofs.Opacity

namespace Swatch

/-!
### Numbers
-/

section Numbers

variable {w : Written} (proper : w.Spelled)

include proper

/-- A number starts with a sign, a digit or a point. -/
theorem Written.Spelled.head_cases {c : Char} (first : w.text.head? = some c) :
    c = '+' ∨ c = '-' ∨ c = '.' ∨ c.isDigit = true := by
  rw [text] at first
  cases sign : w.sign with
  | some d =>
      rw [sign] at first
      obtain rfl := Option.some.inj first
      rcases proper.sign d sign with same | same
      · exact .inl same
      · exact .inr (.inl same)
  | none =>
      rw [sign] at first
      cases whole : w.whole with
      | cons d digits =>
          rw [whole] at first
          obtain rfl := Option.some.inj first
          exact .inr (.inr (.inr (proper.whole d (by simp [whole]))))
      | nil =>
          cases fraction : w.fraction with
          | none => exact absurd whole (proper.digit fraction)
          | some digits =>
              rw [whole, fraction] at first
              exact .inr (.inr (.inl (Option.some.inj first).symm))

/-- A number goes on with nothing in front of it but starts visibly. -/
theorem Written.Spelled.stopsSpace (rest : Text) :
    Stops isSpace (w.text ++ rest) ∧ (w.text ++ rest).head? ≠ some '*' := by
  obtain ⟨c, more, spelled⟩ := List.exists_cons_of_ne_nil proper.text_ne_nil
  have first : w.text.head? = some c := by rw [spelled, List.head?_cons]
  rw [spelled, List.cons_append, stops_cons, List.head?_cons]
  rcases proper.head_cases first with rfl | rfl | rfl | digit
  · exact ⟨rfl, by decide⟩
  · exact ⟨rfl, by decide⟩
  · exact ⟨rfl, by decide⟩
  · constructor
    · rw [isDigit_iff] at digit
      rw [Bool.eq_false_iff, ne_eq, isSpace_iff]
      omega
    · rintro ⟨⟩
      cases digit

/-- A number is one token, up to a character that it does not go on with. -/
theorem Written.Spelled.tokens_number {rest : Text} (stops : Stops continuesNumber rest) :
    tokens (w.text ++ rest) = .number w.number :: tokens rest := by
  obtain ⟨digits, fraction, exponent, percent, unit⟩ := endsNumber stops
  exact tokens_numeric (proper.startsNumber rest) proper.text_ne_nil
    (readNumeric_number proper ⟨digits, fun _ _ => fraction, fun _ => exponent⟩ percent unit)

/-- A number with a percent sign is one token. -/
theorem Written.Spelled.tokens_percentage (rest : Text) :
    tokens (w.text ++ '%' :: rest) = .percentage w.percentage :: tokens rest := by
  have spelled : w.text ++ '%' :: rest = (w.text ++ ['%']) ++ rest := by simp
  rw [spelled]
  apply tokens_numeric
  · rw [List.append_assoc]
    exact proper.startsNumber _
  · simp
  · rw [List.append_assoc, List.singleton_append, readNumeric_percentage proper,
      List.length_append]
    rfl

end Numbers

/-!
### Between two numbers
-/

/-- What stands between two numbers: a mark with gaps around it, or only a gap, which then is not
empty. -/
inductive Between : Option Char → Text → Prop where
  | mark {c : Char} {front back : Text} (opened : IsGap front) (closed : IsGap back) :
      Between (some c) (front ++ c :: back)
  | gap {s : Text} (isGap : IsGap s) (nonempty : s ≠ []) : Between none s

/-- The token of a mark between two numbers. -/
def markToken (c : Char) : Token := if c = ',' then .comma else .delim c

/-- The tokens without blanks. -/
def dark (ts : List Token) : List Token := ts.filter (!·.isBlank)

/-- A gap starts with white space or a slash. -/
theorem IsGap.head_cases {gap : Text} (isGap : IsGap gap) (nonempty : gap ≠ []) (rest : Text) :
    Stops continuesNumber (gap ++ rest) ∧ (gap ++ rest).head? ≠ some '*' := by
  cases isGap with
  | nil => exact absurd rfl nonempty
  | @space c more space gap =>
      simp only [isSpace, isNewline, Bool.or_eq_true, beq_iff_eq] at space
      rcases space with (rfl | rfl) | (rfl | rfl) | rfl
      all_goals exact ⟨rfl, by simp⟩
  | comment inside gap => exact ⟨rfl, by simp⟩

/-- A slash that opens no comment is a mark. -/
theorem tokens_slash {rest : Text} (other : rest.head? ≠ some '*') :
    tokens ('/' :: rest) = .delim '/' :: tokens rest := by
  apply tokens_mark
  have number : startsNumber ('/' :: rest) = false :=
    not_startsNumber rest (by decide) (by decide) rfl (by decide)
  have comment : ¬['*'] <+: rest := by
    rintro ⟨more, rfl⟩
    exact other rfl
  rw [scan_mark rfl (by decide) (by decide) (by decide) (by decide) number rfl]
  exact readPunctuation_plain rfl (fun _ => comment) (by simp) (by simp)

theorem dark_append (front back : List Token) : dark (front ++ back) = dark front ++ dark back :=
  List.filter_append ..

theorem dark_blanks {blanks : List Token} (blank : ∀ t ∈ blanks, t.isBlank = true) :
    dark blanks = [] := by
  rw [dark, List.filter_eq_nil_iff]
  intro t member
  simp [blank t member]

/-- Tokens without a bracket, as the arguments of a function are here. -/
def Flat (ts : List Token) : Prop := ∀ t ∈ ts, t.opens? = none ∧ t ≠ .closing .round

theorem Flat.append {front back : List Token} (first : Flat front) (second : Flat back) :
    Flat (front ++ back) :=
  List.forall_mem_append.mpr ⟨first, second⟩

theorem flat_blanks {blanks : List Token} (blank : ∀ t ∈ blanks, t.isBlank = true) :
    Flat blanks := by
  intro t member
  refine ⟨Token.opens_of_isBlank (blank t member), ?_⟩
  rintro rfl
  cases blank _ member

/-- A mark is one token, which is no blank and no bracket. -/
theorem tokens_markChar {c : Char} (known : c = ',' ∨ c = '/') :
    dark [markToken c] = [markToken c] ∧ Flat [markToken c] ∧
      ∀ rest : Text, rest.head? ≠ some '*' → tokens (c :: rest) = markToken c :: tokens rest := by
  rcases known with rfl | rfl
  · exact ⟨rfl, List.forall_mem_singleton.mpr ⟨rfl, by decide⟩, fun rest _ => tokens_comma rest⟩
  · exact ⟨rfl, List.forall_mem_singleton.mpr ⟨rfl, by decide⟩, fun _ other => tokens_slash other⟩

/-- What stands between two numbers is read as its mark, with blanks around it. -/
theorem Between.reads {mark : Option Char} {s : Text} (between : Between mark s)
    (known : ∀ c ∈ mark, c = ',' ∨ c = '/') :
    ∃ ts : List Token, dark ts = mark.toList.map markToken ∧ Flat ts ∧
      ∀ rest, Stops isSpace rest → rest.head? ≠ some '*' →
        tokens (s ++ rest) = ts ++ tokens rest := by
  cases between with
  | gap isGap nonempty =>
      obtain ⟨blanks, blank, read⟩ := isGap.tokens_eq
      exact ⟨blanks, dark_blanks blank, flat_blanks blank, fun rest visible _ => read rest visible⟩
  | @mark c front back opened closed =>
      obtain ⟨before, beforeBlank, first⟩ := opened.tokens_eq
      obtain ⟨after, afterBlank, second⟩ := closed.tokens_eq
      obtain ⟨kept, flat, read⟩ := tokens_markChar (known c rfl)
      refine ⟨before ++ ([markToken c] ++ after), ?_, ?_, fun rest visible other => ?_⟩
      · rw [dark_append, dark_append, dark_blanks beforeBlank, dark_blanks afterBlank, kept]
        rfl
      · exact (flat_blanks beforeBlank).append (flat.append (flat_blanks afterBlank))
      · have space : Stops isSpace (c :: (back ++ rest)) := by
          rcases known c rfl with rfl | rfl
          · rfl
          · rfl
        have behind : (back ++ rest).head? ≠ some '*' := by
          by_cases empty : back = []
          · rwa [empty, List.nil_append]
          · exact (closed.head_cases empty rest).2
        rw [List.append_assoc, List.cons_append, first _ space, read _ behind, second rest visible]
        simp

/-- No number goes on with what stands behind it. -/
theorem Between.stopsNumber {mark : Option Char} {s : Text} (between : Between mark s)
    (known : ∀ c ∈ mark, c = ',' ∨ c = '/') (rest : Text) :
    Stops continuesNumber (s ++ rest) := by
  cases between with
  | gap isGap nonempty => exact (isGap.head_cases nonempty rest).1
  | @mark c front back opened closed =>
      rw [List.append_assoc, List.cons_append]
      apply opened.stopsNumber
      rcases known c rfl with rfl | rfl
      · rfl
      · rfl

/-!
### Arguments
-/

/-- The token of a component. -/
def Component.token : Component → Token
  | .number value => .number value
  | .percentage value => .percentage value

/-- The mark between two components, and the one in front of an opacity. -/
def innerMark (commas : Bool) : Option Char := if commas then some ',' else none

def lastMark (commas : Bool) : Char := if commas then ',' else '/'

/-- Three numbers and an opacity are a colour with it, and without one the colour is opaque. -/
theorem rgbArguments_spelled {commas : Bool} {red green blue : Numeral} {alpha : Option Component}
    {ts : List Tree}
    (read : ts.map Tree.token = .number red :: ((innerMark commas).toList.map markToken ++
      .number green :: ((innerMark commas).toList.map markToken ++ .number blue ::
        alpha.toList.flatMap fun a => [markToken (lastMark commas), a.token]))) :
    rgbArguments ts = .ok (⟨red.level, green.level, blue.level⟩,
      (alpha.map Component.opacity).getD .highest) := by
  have channel (n : Numeral) : (Component.number n).channel = n.level := rfl
  have component (a : Component) : component? a.token = some a := by cases a <;> rfl
  have reads {α : Type} (a : α) : (pure a : Except RgbFault α) = .ok a := rfl
  obtain ⟨r, ts, rfl, first, read⟩ := List.map_eq_cons_iff.mp read
  have started : component? r.token = some (.number red) := by
    rw [first]
    rfl
  cases commas with
  | true =>
      obtain ⟨c, ts, rfl, comma, read⟩ := List.map_eq_cons_iff.mp read
      obtain ⟨g, ts, rfl, second, read⟩ := List.map_eq_cons_iff.mp read
      obtain ⟨d, ts, rfl, comma', read⟩ := List.map_eq_cons_iff.mp read
      obtain ⟨b, ts, rfl, third, read⟩ := List.map_eq_cons_iff.mp read
      have mark : markToken ',' = .comma := rfl
      cases alpha with
      | none =>
          obtain rfl := List.map_eq_nil_iff.mp read
          simp [rgbArguments, expect, started, comma, second, comma', third, componentLike?,
            exactly?, channel, mark, bind, Except.bind, reads, Functor.map, Except.map]
      | some a =>
          obtain ⟨e, ts, rfl, comma'', read⟩ := List.map_eq_cons_iff.mp read
          obtain ⟨f, ts, rfl, fourth, read⟩ := List.map_eq_cons_iff.mp read
          obtain rfl := List.map_eq_nil_iff.mp read
          have opacity : component? f.token = some a := by rw [fourth, component]
          have separator : e.token = .comma := comma''
          simp [rgbArguments, expect, started, comma, second, comma', third, separator,
            componentLike?, exactly?, channel, mark, bind, Except.bind, reads, Functor.map,
            Except.map, opacity]
  | false =>
      obtain ⟨g, ts, rfl, second, read⟩ := List.map_eq_cons_iff.mp read
      obtain ⟨b, ts, rfl, third, read⟩ := List.map_eq_cons_iff.mp read
      cases alpha with
      | none =>
          obtain rfl := List.map_eq_nil_iff.mp read
          simp [rgbArguments, expect, started, second, third, componentLike?, channel, bind,
            Except.bind, reads]
      | some a =>
          obtain ⟨e, ts, rfl, slash, read⟩ := List.map_eq_cons_iff.mp read
          obtain ⟨f, ts, rfl, fourth, read⟩ := List.map_eq_cons_iff.mp read
          obtain rfl := List.map_eq_nil_iff.mp read
          have opacity : component? f.token = some a := by rw [fourth, component]
          have separator : e.token = .delim '/' := slash
          simp [rgbArguments, expect, started, second, third, separator, componentLike?, exactly?,
            channel, bind, Except.bind, reads, opacity]

/-!
### Colours as they are spelled
-/

/-- A colour up to its last component, in one of the two notations: with commas between the
components, or with gaps. -/
structure SpelledColour where
  commas : Bool
  before : Text
  name : Text
  opening : Text
  red : Written
  first : Text
  green : Written
  second : Text
  blue : Written
  after : Text
  blankBefore : ∀ c ∈ before, isBlank c = true
  rgb : lowercase name = "rgb".toList
  opened : IsGap opening
  properRed : red.Spelled
  firstBetween : Between (innerMark commas) first
  properGreen : green.Spelled
  secondBetween : Between (innerMark commas) second
  properBlue : blue.Spelled
  blankAfter : ∀ c ∈ after, isBlank c = true

/-- The function of a colour with `rest` between its last component and its closing bracket. -/
def SpelledColour.function (c : SpelledColour) (rest : Text) : Text :=
  c.name ++ '(' :: (c.opening ++ (c.red.text ++ (c.first ++ (c.green.text ++ (c.second ++
    (c.blue.text ++ (rest ++ [')'])))))))

/-- The text of a colour with `rest` between its last component and its closing bracket. -/
def SpelledColour.text (c : SpelledColour) (rest : Text) : Text :=
  c.before ++ (c.function rest ++ c.after)

/-- The colour that its components denote. -/
def SpelledColour.color (c : SpelledColour) : Color :=
  ⟨c.red.number.level, c.green.number.level, c.blue.number.level⟩

/-- An opacity as it is spelled behind the last component, in one of the two notations. -/
structure SpelledOpacity (commas : Bool) where
  mark : Text
  number : Written
  percent : Bool
  closing : Text
  between : Between (some (lastMark commas)) mark
  proper : number.Spelled
  closed : IsGap closing

namespace SpelledOpacity

variable {commas : Bool}

def text (a : SpelledOpacity commas) : Text :=
  a.mark ++ (a.number.text ++ ((if a.percent then ['%'] else []) ++ a.closing))

def component (a : SpelledOpacity commas) : Component :=
  if a.percent then .percentage a.number.percentage else .number a.number.number

/-- The share that a decimal without an exponent spells: of one, or of a hundred. -/
def value (a : SpelledOpacity commas) : ℚ :=
  if a.percent then a.number.value / 100 else a.number.value

end SpelledOpacity

/-- What stands behind the last component is read as an opacity, or as blanks if there is none. -/
structure ReadsOpacity (commas : Bool) (alpha : Option Component) (rest : Text) : Prop where
  stops : Stops continuesNumber (rest ++ [')'])
  reads : ∃ ts, dark ts = alpha.toList.flatMap (fun a => [markToken (lastMark commas), a.token]) ∧
    Flat ts ∧ tokens (rest ++ [')']) = ts ++ [.closing .round]

theorem tokens_bracket : tokens [')'] = [.closing .round] := by
  rw [tokens_closeRound, tokens_nil]

theorem readsOpacity_gap (commas : Bool) {gap : Text} (isGap : IsGap gap) :
    ReadsOpacity commas none gap where
  stops := isGap.stopsNumber rfl
  reads := by
    obtain ⟨blanks, blank, read⟩ := isGap.tokens_eq
    exact ⟨blanks, dark_blanks blank, flat_blanks blank, by rw [read [')'] rfl, tokens_bracket]⟩

theorem SpelledOpacity.readsOpacity {commas : Bool} (a : SpelledOpacity commas) :
    ReadsOpacity commas (some a.component) a.text := by
  have known : ∀ c ∈ some (lastMark commas), c = ',' ∨ c = '/' := by
    rintro c ⟨⟩
    cases commas with
    | true => exact .inl rfl
    | false => exact .inr rfl
  obtain ⟨front, kept, flat, read⟩ := a.between.reads known
  obtain ⟨blanks, blank, close⟩ := a.closed.tokens_eq
  have spelled : a.text ++ [')'] = a.mark ++ (a.number.text ++
      ((if a.percent then ['%'] else []) ++ (a.closing ++ [')']))) := by
    simp [text]
  have number : tokens (a.number.text ++ ((if a.percent then ['%'] else []) ++
      (a.closing ++ [')']))) = a.component.token :: (blanks ++ [.closing .round]) := by
    rw [component]
    cases a.percent with
    | true =>
        have read := a.proper.tokens_percentage (a.closing ++ [')'])
        rw [close [')'] rfl, tokens_bracket] at read
        exact read
    | false =>
        have stops : Stops continuesNumber (a.closing ++ [')']) := a.closed.stopsNumber rfl
        have read := a.proper.tokens_number stops
        rw [close [')'] rfl, tokens_bracket] at read
        exact read
  have visible : dark [a.component.token] = [a.component.token] ∧ Flat [a.component.token] := by
    cases a.component with
    | number value => exact ⟨rfl, List.forall_mem_singleton.mpr ⟨rfl, by simp [Component.token]⟩⟩
    | percentage value =>
        exact ⟨rfl, List.forall_mem_singleton.mpr ⟨rfl, by simp [Component.token]⟩⟩
  obtain ⟨space, other⟩ := a.proper.stopsSpace
    ((if a.percent then ['%'] else []) ++ (a.closing ++ [')']))
  refine ⟨?_, front ++ ([a.component.token] ++ blanks), ?_, ?_, ?_⟩
  · rw [spelled]
    exact a.between.stopsNumber known _
  · rw [dark_append, dark_append, kept, visible.1, dark_blanks blank]
    rfl
  · exact flat.append (visible.2.append (flat_blanks blank))
  · rw [spelled, read _ space other, number]
    simp

/-!
### Resolution
-/

/-- A character with a given small letter is that letter or the capital one. -/
theorem eq_of_toLower {c d : Char} (same : c.toLower = d) :
    c = d ∨ c = Char.ofNat (d.toNat - 32) := by
  rcases toLower_cases c with ⟨-, moved⟩ | kept
  · right
    rw [← same, moved, Nat.add_sub_cancel, Char.ofNat_toNat]
  · exact .inl (kept.symm.trans same)

/-- The name of the function, in any letter case. -/
theorem rgb_cases {name : Text} (rgb : lowercase name = "rgb".toList) :
    IsName name ∧ ∃ r g b, name = [r, g, b] ∧ isBlank r = false ∧ r ≠ '#' := by
  obtain ⟨r, name, rfl, first, rest⟩ := List.map_eq_cons_iff.mp rgb
  obtain ⟨g, name, rfl, second, rest⟩ := List.map_eq_cons_iff.mp rest
  obtain ⟨b, name, rfl, third, rest⟩ := List.map_eq_cons_iff.mp rest
  obtain rfl := List.map_eq_nil_iff.mp rest
  rcases eq_of_toLower first with rfl | rfl <;> rcases eq_of_toLower second with rfl | rfl <;>
    rcases eq_of_toLower third with rfl | rfl <;>
    exact ⟨by decide, _, _, _, rfl, by decide, by decide⟩

/-- A function with that name is resolved as such, blanks around it left out. -/
theorem canonicalize_function (c : SpelledColour) (rest : Text) :
    canonicalize (c.text rest) =
      (rgbColor (c.function rest)).mapError (.invalidRgb (c.text rest)) := by
  obtain ⟨-, r, g, b, name, visible, other⟩ := rgb_cases c.rgb
  have spelled : c.function rest = r :: ((g :: b :: '(' :: (c.opening ++ (c.red.text ++ (c.first ++
      (c.green.text ++ (c.second ++ (c.blue.text ++ rest))))))) ++ [')']) := by
    rw [SpelledColour.function, name]
    simp
  have trimmed : trim (c.text rest) = c.function rest := by
    rw [SpelledColour.text, trim_padded c.blankBefore c.blankAfter, spelled]
    exact trim_of_ends _ visible (by decide)
  have opened : lowercase ((c.function rest).take 4) = "rgb(".toList := by
    have front : (c.function rest).take 4 = c.name ++ ['('] := by
      rw [spelled, name]
      rfl
    rw [front, lowercase, List.map_append]
    exact congrArg (· ++ ['(']) c.rgb
  rw [canonicalize, trimmed]
  split
  next digits hash =>
    rw [spelled] at hash
    exact absurd (List.cons.inj hash).1 other
  next => rw [if_pos opened]

/-- The components of a spelled colour are read in their order, with their marks and blanks between
them. -/
theorem SpelledColour.reads (c : SpelledColour) {alpha : Option Component} {rest : Text}
    (reads : ReadsOpacity c.commas alpha rest) :
    ∃ arguments : List Token, Flat arguments ∧
      tokens (c.function rest) = .function c.name :: (arguments ++ [.closing .round]) ∧
      dark arguments = .number c.red.number :: ((innerMark c.commas).toList.map markToken ++
        .number c.green.number :: ((innerMark c.commas).toList.map markToken ++
          .number c.blue.number ::
            alpha.toList.flatMap fun a => [markToken (lastMark c.commas), a.token])) := by
  obtain ⟨isName, -⟩ := rgb_cases c.rgb
  have other : lowercase c.name ≠ "url".toList := by
    rw [c.rgb]
    decide
  have known : ∀ d ∈ innerMark c.commas, d = ',' ∨ d = '/' := by
    intro d member
    rw [innerMark] at member
    split at member
    · exact .inl (Option.some.inj member).symm
    · cases member
  have number (n : Numeral) : dark [.number n] = [.number n] ∧ Flat [.number n] :=
    ⟨rfl, List.forall_mem_singleton.mpr ⟨rfl, by simp⟩⟩
  obtain ⟨opening, blank, opened⟩ := c.opened.tokens_eq
  obtain ⟨first, firstDark, firstFlat, firstRead⟩ := c.firstBetween.reads known
  obtain ⟨second, secondDark, secondFlat, secondRead⟩ := c.secondBetween.reads known
  obtain ⟨stops, last, lastDark, lastFlat, lastRead⟩ := reads
  have inFront {w : Written} (proper : w.Spelled) {s rest : Text} {ts : List Token}
      (read : ∀ rest, Stops isSpace rest → rest.head? ≠ some '*' →
        tokens (s ++ rest) = ts ++ tokens rest) :
      tokens (s ++ (w.text ++ rest)) = ts ++ tokens (w.text ++ rest) :=
    read _ (proper.stopsSpace rest).1 (proper.stopsSpace rest).2
  refine ⟨opening ++ ([.number c.red.number] ++ (first ++ ([.number c.green.number] ++
    (second ++ ([.number c.blue.number] ++ last))))), ?_, ?_, ?_⟩
  · exact (flat_blanks blank).append ((number _).2.append (firstFlat.append
      ((number _).2.append (secondFlat.append ((number _).2.append lastFlat)))))
  · rw [SpelledColour.function, tokens_function isName other,
      inFront c.properRed fun rest visible _ => opened rest visible,
      c.properRed.tokens_number (c.firstBetween.stopsNumber known _),
      inFront c.properGreen firstRead,
      c.properGreen.tokens_number (c.secondBetween.stopsNumber known _),
      inFront c.properBlue secondRead, c.properBlue.tokens_number stops, lastRead]
    simp
  · simp only [dark_append, dark_blanks blank, (number _).1, firstDark, secondDark, lastDark]
    rfl

/-- A spelled colour is resolved to the colour of its components, if its opacity is full. -/
theorem canonicalize_spelled (c : SpelledColour) {alpha : Option Component} {rest : Text}
    (reads : ReadsOpacity c.commas alpha rest) :
    canonicalize (c.text rest) =
      if (alpha.map Component.opacity).getD .highest = .highest then .ok c.color
      else .error (.invalidRgb (c.text rest) .translucent) := by
  obtain ⟨arguments, flat, read, visible⟩ := c.reads reads
  have formed : tokens (c.function rest) =
      .function c.name :: (arguments ++ .closing .round :: tokens []) := by
    rw [read, tokens_nil]
  have function := rgbColor_of_shape (shape_of_forms (Forms.function formed flat)) fun ts tokens =>
    rgbArguments_spelled (tokens.trans visible)
  rw [canonicalize_function, function]
  split
  next => rfl
  next => rfl

/-- An opacity without an exponent counts as full from half a step of 255 below one on, which
decimals enclose. -/
theorem SpelledOpacity.opacity {commas : Bool} (a : SpelledOpacity commas)
    (plain : a.number.exponent = none) :
    (9980391562 / 10 ^ 10 ≤ a.value → a.component.opacity = .highest) ∧
      (a.value ≤ 9980391561 / 10 ^ 10 → a.component.opacity ≠ .highest) := by
  rw [value, component]
  cases a.percent with
  | true => exact share_percentage a.proper plain
  | false => exact share_number a.proper plain

section Opacity

variable (c : SpelledColour) (a : SpelledOpacity c.commas)

/-- With an opacity a colour is what it is without one if the opacity counts as full, and no
colour otherwise. -/
theorem canonicalize_opacity {gap : Text} (closed : IsGap gap) :
    canonicalize (c.text gap) = .ok c.color ∧
      canonicalize (c.text a.text) =
        if a.component.opacity = .highest then .ok c.color
        else .error (.invalidRgb (c.text a.text) .translucent) :=
  ⟨canonicalize_spelled c (readsOpacity_gap c.commas closed), canonicalize_spelled c a.readsOpacity⟩

/-- An opacity from half a step below one on is dropped, even where it is less than one. -/
theorem canonicalize_nearlyFull (plain : a.number.exponent = none)
    (reached : 9980391562 / 10 ^ 10 ≤ a.value) : canonicalize (c.text a.text) = .ok c.color := by
  obtain ⟨-, resolved⟩ := canonicalize_opacity c a .nil
  rw [resolved, if_pos ((a.opacity plain).1 reached)]

/-- Apart from opacities less than half a step below one, a colour with an opacity is resolved
exactly if that is at least one, and then to the colour without it. -/
theorem canonicalize_decimalOpacity (plain : a.number.exponent = none)
    (apart : a.value ≤ 9980391561 / 10 ^ 10 ∨ 1 ≤ a.value) {gap : Text} (closed : IsGap gap) :
    ∃ color, canonicalize (c.text gap) = .ok color ∧
      (∀ found, canonicalize (c.text a.text) = .ok found ↔ 1 ≤ a.value ∧ found = color) ∧
      (a.value < 1 → canonicalize (c.text a.text) =
        .error (.invalidRgb (c.text a.text) .translucent)) := by
  obtain ⟨bare, resolved⟩ := canonicalize_opacity c a closed
  refine ⟨c.color, bare, ?_⟩
  rcases apart with below | above
  · have less : a.value < 1 := by linarith
    rw [resolved, if_neg ((a.opacity plain).2 below)]
    refine ⟨fun found => ⟨nofun, fun ⟨least, _⟩ => absurd least (not_le_of_gt less)⟩, fun _ => rfl⟩
  · rw [canonicalize_nearlyFull c a plain (by linarith)]
    refine ⟨fun found => ?_, fun less => absurd above (not_le_of_gt less)⟩
    rw [Except.ok.injEq]
    exact ⟨fun same => ⟨above, same.symm⟩, fun same => same.2.symm⟩

end Opacity

/-!
### Opacities around the last step
-/

/-- Digits, and a fraction behind them if there is one, are a number. -/
theorem spelled_decimal {whole : Text} {fraction : Option Text} (digits : IsDigits whole)
    (more : ∀ places ∈ fraction, IsDigits places) :
    Written.Spelled ⟨none, whole, fraction, none⟩ where
  sign := by simp
  whole := digits.2
  digit := fun _ => digits.1
  fraction := more
  exponent := by simp

theorem isDigits_single {c : Char} (digit : c.isDigit = true) : IsDigits [c] :=
  ⟨List.cons_ne_nil c [], List.forall_mem_singleton.mpr digit⟩

/-- The colour `rgb(1, 2, 3)`. -/
def listedColour : SpelledColour where
  commas := true
  before := []
  name := "rgb".toList
  opening := []
  red := ⟨none, ['1'], none, none⟩
  first := ", ".toList
  green := ⟨none, ['2'], none, none⟩
  second := ", ".toList
  blue := ⟨none, ['3'], none, none⟩
  after := []
  blankBefore := List.forall_mem_nil _
  rgb := rfl
  opened := .nil
  properRed := spelled_decimal (isDigits_single rfl) (by simp)
  firstBetween := .mark .nil (.space rfl .nil)
  properGreen := spelled_decimal (isDigits_single rfl) (by simp)
  secondBetween := .mark .nil (.space rfl .nil)
  properBlue := spelled_decimal (isDigits_single rfl) (by simp)
  blankAfter := List.forall_mem_nil _

/-- The colour `rgb(1 2 3)`. -/
def spacedColour : SpelledColour where
  commas := false
  before := []
  name := "rgb".toList
  opening := []
  red := ⟨none, ['1'], none, none⟩
  first := [' ']
  green := ⟨none, ['2'], none, none⟩
  second := [' ']
  blue := ⟨none, ['3'], none, none⟩
  after := []
  blankBefore := List.forall_mem_nil _
  rgb := rfl
  opened := .nil
  properRed := spelled_decimal (isDigits_single rfl) (by simp)
  firstBetween := .gap (.space rfl .nil) (List.cons_ne_nil _ _)
  properGreen := spelled_decimal (isDigits_single rfl) (by simp)
  secondBetween := .gap (.space rfl .nil) (List.cons_ne_nil _ _)
  properBlue := spelled_decimal (isDigits_single rfl) (by simp)
  blankAfter := List.forall_mem_nil _

/-- The opacity `1.0`. -/
def fullOpacity : SpelledOpacity listedColour.commas where
  mark := ", ".toList
  number := ⟨none, ['1'], some ['0'], none⟩
  percent := false
  closing := []
  between := .mark .nil (.space rfl .nil)
  proper := spelled_decimal (isDigits_single rfl) (by
    rintro _ ⟨⟩
    exact isDigits_single rfl)
  closed := .nil

/-- The opacity `5%`. -/
def faintOpacity : SpelledOpacity spacedColour.commas where
  mark := " / ".toList
  number := ⟨none, ['5'], none, none⟩
  percent := true
  closing := []
  between := .mark (.space rfl .nil) (.space rfl .nil)
  proper := spelled_decimal (isDigits_single rfl) (by simp)
  closed := .nil

/-- The opacity `0.999`. -/
def slightOpacity : SpelledOpacity listedColour.commas where
  mark := ", ".toList
  number := ⟨none, ['0'], some ['9', '9', '9'], none⟩
  percent := false
  closing := []
  between := .mark .nil (.space rfl .nil)
  proper := spelled_decimal (isDigits_single rfl) (by
    rintro _ ⟨⟩
    exact ⟨by simp, List.all_eq_true.mp rfl⟩)
  closed := .nil

/-- The first is resolved as the colour without it, the second is rejected. -/
theorem canonicalize_decimalOpacity_fullAndFaint :
    (∃ color, canonicalize "rgb(1, 2, 3)".toList = .ok color ∧
      canonicalize "rgb(1, 2, 3, 1.0)".toList = .ok color) ∧
      canonicalize "rgb(1 2 3 / 5%)".toList =
        .error (.invalidRgb "rgb(1 2 3 / 5%)".toList .translucent) := by
  have full : fullOpacity.value = 1 := by
    have digits : digitsValue ['1'] = 1 := rfl
    have zero : digitValue '0' = 0 := rfl
    simp [SpelledOpacity.value, fullOpacity, Written.value, Written.size, fractionAmount, digits,
      zero]
  have faint : faintOpacity.value = 5 / 100 := by
    have digits : digitsValue ['5'] = 5 := rfl
    simp [SpelledOpacity.value, faintOpacity, Written.value, Written.size, fractionAmount, digits]
  constructor
  · obtain ⟨color, bare, resolved, -⟩ := canonicalize_decimalOpacity listedColour fullOpacity rfl
      (.inr (le_of_eq full.symm)) .nil
    exact ⟨color, bare, (resolved color).mpr ⟨le_of_eq full.symm, rfl⟩⟩
  · obtain ⟨-, -, -, rejected⟩ := canonicalize_decimalOpacity spacedColour faintOpacity rfl
      (.inl (by rw [faint]; norm_num)) .nil
    exact rejected (by rw [faint]; norm_num)

/-- An opacity of 0.999 is less than one, and still the colour is resolved. -/
theorem canonicalize_slightOpacity :
    slightOpacity.value < 1 ∧
      listedColour.text slightOpacity.text = "rgb(1, 2, 3, 0.999)".toList ∧
      canonicalize "rgb(1, 2, 3, 0.999)".toList = .ok listedColour.color := by
  have value : slightOpacity.value = 999 / 1000 := by
    have digits : digitsValue ['0'] = 0 := rfl
    have nine : digitValue '9' = 9 := rfl
    simp only [SpelledOpacity.value, slightOpacity, Written.value, Written.size, fractionAmount,
      digits, nine, Option.getD_some, reduceCtorEq, Bool.false_eq_true, if_false]
    norm_num
  refine ⟨by rw [value]; norm_num, rfl, ?_⟩
  exact canonicalize_nearlyFull listedColour slightOpacity rfl (by rw [value]; norm_num)

end Swatch
