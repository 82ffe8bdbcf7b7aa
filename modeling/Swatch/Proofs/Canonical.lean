/-
Module: Swatch.Proofs.Canonical
Purpose: The text of a colour is the canonical form of all its hexadecimal spellings, and a text
  that denotes no colour is rejected for the way in which it starts.
Main exports:
  IsKey, Spells, text_inj, canonicalize_hash_iff, canonicalize_spelling, Rejects,
  rejects_canonicalize, canonicalize_canonical
-/
import Swatch.Proofs.Denotation

namespace Swatch

/-!
### Keys
-/

/-- A hexadecimal digit that is no capital letter. -/
def isLowerHexDigit (c : Char) : Bool := c.isDigit || ('a' ≤ c && c ≤ 'f')

/-- A hash and six lowercase hexadecimal digits. -/
def IsKey (key : Text) : Prop :=
  ∃ digits, key = '#' :: digits ∧ digits.length = 6 ∧ ∀ c ∈ digits, isLowerHexDigit c = true

/-- The hexadecimal spellings of a key.  Letter case does not count, and of two equal digits
each one may be left out if all pairs of digits are equal. -/
inductive Spells (key : Text) : Text → Prop where
  | long {u : Text} (same : lowercase u = key) : Spells key u
  | short {u : Text} {r g b : Char} (doubled : key = ['#', r, r, g, g, b, b])
      (same : lowercase u = ['#', r, g, b]) : Spells key u

theorem isLowerHexDigit_digitChar {n : Nat} (small : n < 16) :
    isLowerHexDigit (Nat.digitChar n) = true := by
  have all : ∀ m : Fin 16, isLowerHexDigit (Nat.digitChar m.val) = true := by decide
  exact all ⟨n, small⟩

/-- The text of a colour is a key. -/
theorem isKey_text (color : Color) : IsKey color.text := by
  have digits (c : Channel) : ∀ d ∈ channelText c, isLowerHexDigit d = true := by
    have high : c.val / 16 < 16 := by
      have bound := c.isLt
      omega
    have low : c.val % 16 < 16 := Nat.mod_lt _ (by decide)
    intro d member
    rw [channelText, List.mem_pair] at member
    rcases member with rfl | rfl
    · exact isLowerHexDigit_digitChar high
    · exact isLowerHexDigit_digitChar low
  refine ⟨_, rfl, rfl, ?_⟩
  intro d member
  simp only [List.mem_append] at member
  rcases member with (red | green) | blue
  · exact digits _ d red
  · exact digits _ d green
  · exact digits _ d blue

/-- Colours with the same text are the same: the text denotes the colour. -/
theorem text_inj {a b : Color} : a.text = b.text ↔ a = b := by
  constructor
  · intro same
    have resolved := canonicalize_text a
    rw [same, canonicalize_text b] at resolved
    exact (Except.ok.inj resolved).symm
  · intro same
    rw [same]

/-!
### Letter case
-/

/-- A capital letter of the ASCII range has its small letter 32 places on; nothing else is
changed. -/
theorem toLower_cases (c : Char) :
    (c.isUpper = true ∧ c.toLower.toNat = c.toNat + 32) ∨ c.toLower = c := by
  by_cases upper : c.isUpper = true
  · left
    have moved : c.toLower = ⟨c.val + 32, _⟩ := dif_pos (of_decide_eq_true upper)
    have bounds := isUpper_iff.mp upper
    have step : UInt32.toNat 32 = 32 := rfl
    have small : c.val.toNat ≤ 90 := bounds.2
    refine ⟨upper, ?_⟩
    rw [moved]
    show (c.val + 32).toNat = c.val.toNat + 32
    rw [UInt32.toNat_add, step]
    exact Nat.mod_eq_of_lt (by omega)
  · right
    exact dif_neg fun capital => upper (decide_eq_true capital)

theorem toLower_eq_hash {c : Char} (same : c.toLower = '#') : c = '#' := by
  rcases toLower_cases c with ⟨upper, moved⟩ | kept
  · have bounds := isUpper_iff.mp upper
    rw [same] at moved
    have hash : '#'.toNat = 35 := rfl
    omega
  · exact kept.symm.trans same

theorem isLowerHexDigit_iff {c : Char} :
    isLowerHexDigit c = true ↔
      (48 ≤ c.toNat ∧ c.toNat ≤ 57) ∨ (97 ≤ c.toNat ∧ c.toNat ≤ 102) := by
  simp [isLowerHexDigit, isDigit_iff, Char.le_def, UInt32.le_iff_toNat_le]

theorem isHexDigit_of_toLower {c : Char} (digit : isLowerHexDigit c.toLower = true) :
    isHexDigit c = true := by
  rw [isLowerHexDigit_iff] at digit
  rw [isHexDigit_iff]
  rcases toLower_cases c with ⟨upper, moved⟩ | kept
  · have bounds := isUpper_iff.mp upper
    omega
  · rw [kept] at digit
    omega

/-- A text that is a hash and lowercase digits but for its letter case is a hash and digits. -/
theorem hash_of_lowercase {u digits : Text} (same : lowercase u = '#' :: digits)
    (all : ∀ c ∈ digits, isLowerHexDigit c = true) :
    ∃ written, u = '#' :: written ∧ lowercase written = digits ∧
      ∀ c ∈ written, isHexDigit c = true := by
  obtain ⟨mark, written, rfl, hash, rest⟩ := List.map_eq_cons_iff.mp same
  obtain rfl := toLower_eq_hash hash
  refine ⟨written, rfl, rest, ?_⟩
  intro c member
  apply isHexDigit_of_toLower
  apply all
  rw [← rest]
  exact List.mem_map_of_mem member

/-!
### Spellings
-/

theorem hexColor_three {r g b : Char} (hex : ∀ c ∈ [r, g, b], isHexDigit c = true) :
    hexColor [r, g, b] = .ok ⟨channelOf r r, channelOf g g, channelOf b b⟩ := by
  rw [hexColor, if_pos (List.all_eq_true.mpr hex)]

theorem hexColor_six {r r' g g' b b' : Char}
    (hex : ∀ c ∈ [r, r', g, g', b, b'], isHexDigit c = true) :
    hexColor [r, r', g, g', b, b'] = .ok ⟨channelOf r r', channelOf g g', channelOf b b'⟩ := by
  rw [hexColor, if_pos (List.all_eq_true.mpr hex)]

/-- What the digits after a hash resolve to is spelled by them. -/
theorem spells_of_hexColor {digits : Text} {color : Color} (resolved : hexColor digits = .ok color) :
    Spells color.text ('#' :: digits) := by
  unfold hexColor at resolved
  split at resolved
  next all =>
    have hex := List.all_eq_true.mp all
    split at resolved
    next r g b =>
      cases resolved
      have twice : ∀ c ∈ [r, r, g, g, b, b], isHexDigit c = true := by simpa using hex
      exact .short (spelled_pairs twice).2 rfl
    next r r' g g' b b' =>
      cases resolved
      exact .long (spelled_pairs hex).2.symm
    next => cases resolved
  next => cases resolved

/-- A spelling of the text of a colour is a hash and digits that resolve to the colour. -/
theorem hexColor_of_spells {u : Text} {color : Color} (spelled : Spells color.text u) :
    ∃ digits, u = '#' :: digits ∧ (∀ c ∈ digits, isHexDigit c = true) ∧
      hexColor digits = .ok color := by
  obtain ⟨key, named, six, lower⟩ := isKey_text color
  cases spelled with
  | long same =>
      obtain ⟨digits, rfl, rfl, hex⟩ := hash_of_lowercase (same.trans named) lower
      refine ⟨digits, rfl, hex, ?_⟩
      rw [lowercase, List.length_map] at six
      match digits, six with
      | [r, r', g, g', b, b'], _ =>
          have text := (spelled_pairs hex).2.trans same
          rw [hexColor_six hex, text_inj.mp text]
  | @short r g b doubled same =>
      have lower' : ∀ c ∈ [r, g, b], isLowerHexDigit c = true := by
        rw [doubled] at named
        rw [← (List.cons.inj named).2] at lower
        simpa using lower
      obtain ⟨digits, rfl, short, hex⟩ := hash_of_lowercase same lower'
      obtain ⟨r', others, rfl, rfl, two⟩ := List.map_eq_cons_iff.mp short
      obtain ⟨g', others, rfl, rfl, one⟩ := List.map_eq_cons_iff.mp two
      obtain ⟨b', others, rfl, rfl, none⟩ := List.map_eq_cons_iff.mp one
      obtain rfl := List.map_eq_nil_iff.mp none
      refine ⟨_, rfl, hex, ?_⟩
      have twice : ∀ c ∈ [r', r', g', g', b', b'], isHexDigit c = true := by simpa using hex
      have text := (spelled_pairs twice).2.trans doubled.symm
      rw [hexColor_three hex, text_inj.mp text]

/-!
### Resolution
-/

/-- After blanks, the text starts like a hexadecimal colour. -/
def StartsHex (t : Text) : Prop := ['#'] <+: trim t

/-- After blanks, the text starts like an `rgb()` function, in any letter case. -/
def StartsRgb (t : Text) : Prop := "rgb(".toList <+: lowercase (trim t)

instance (t : Text) : Decidable (StartsHex t) := inferInstanceAs (Decidable (['#'] <+: trim t))

instance (t : Text) : Decidable (StartsRgb t) :=
  inferInstanceAs (Decidable ("rgb(".toList <+: lowercase (trim t)))

/-- A text after whose blanks a hash stands is resolved by its digits. -/
theorem canonicalize_of_hash {t digits : Text} (trimmed : trim t = '#' :: digits) :
    canonicalize t = (hexColor digits).mapError (.invalidHex t) := by
  rw [canonicalize, trimmed]
  rfl

/-- Another text is resolved as a function, if it starts like one. -/
theorem canonicalize_of_not_hash {t : Text} (other : ¬StartsHex t) :
    canonicalize t =
      if StartsRgb t then (rgbColor (trim t)).mapError (.invalidRgb t)
      else .error (.unsupported t) := by
  have opens : lowercase ((trim t).take 4) = "rgb(".toList ↔ StartsRgb t := by
    rw [StartsRgb, List.prefix_iff_eq_take, eq_comm, lowercase, List.map_take]
    rfl
  simp only [← opens]
  unfold canonicalize
  simp only
  split
  next digits trimmed =>
    exact absurd ⟨digits, trimmed.symm⟩ other
  next => rfl

/-- With a hash in front, exactly the spellings of the text of a colour are resolved to it. -/
theorem canonicalize_hash_iff {t : Text} {color : Color} (hash : StartsHex t) :
    canonicalize t = .ok color ↔ Spells color.text (trim t) := by
  obtain ⟨digits, trimmed⟩ := hash
  rw [canonicalize_of_hash trimmed.symm, mapError_eq_ok, ← trimmed]
  constructor
  · intro resolved
    exact spells_of_hexColor resolved
  · intro spelled
    obtain ⟨digits', cons, -, resolved⟩ := hexColor_of_spells spelled
    obtain rfl := (List.cons.inj cons).2
    exact resolved

/-- A spelling of the text of a colour is resolved to the colour, with any blanks around it. -/
theorem canonicalize_spelling {color : Color} {front u back : Text}
    (before : ∀ c ∈ front, isBlank c = true) (behind : ∀ c ∈ back, isBlank c = true)
    (spelled : Spells color.text u) : canonicalize (front ++ (u ++ back)) = .ok color := by
  obtain ⟨digits, rfl, hex, resolved⟩ := hexColor_of_spells spelled
  have nonempty : digits ≠ [] := by
    rintro rfl
    cases resolved
  have trimmed : trim (front ++ ('#' :: digits ++ back)) = '#' :: digits := by
    rw [trim_padded before behind, trim_hash nonempty hex]
  apply (canonicalize_hash_iff ⟨digits, trimmed.symm⟩).mpr
  rw [trimmed]
  exact spelled

/-- The kind of error for a text that is no colour: how the text starts decides. -/
inductive Rejects (t : Text) : ColorError → Prop where
  | hex (hash : StartsHex t) (fault : HexFault) : Rejects t (.invalidHex t fault)
  | rgb (function : StartsRgb t) (fault : RgbFault) :
      Rejects t (.invalidRgb t fault)
  | other (noHash : ¬StartsHex t) (noFunction : ¬StartsRgb t) :
      Rejects t (.unsupported t)

/-- A text that is no colour is rejected for the way in which it starts. -/
theorem rejects_canonicalize {t : Text} {e : ColorError} (rejected : canonicalize t = .error e) :
    Rejects t e := by
  by_cases hash : StartsHex t
  · obtain ⟨digits, trimmed⟩ := id hash
    rw [canonicalize_of_hash trimmed.symm, mapError_eq_error] at rejected
    obtain ⟨fault, -, rfl⟩ := rejected
    exact .hex hash fault
  · rw [canonicalize_of_not_hash hash] at rejected
    split at rejected
    next function =>
      obtain ⟨fault, -, rfl⟩ := mapError_eq_error.mp rejected
      exact .rgb function fault
    next noFunction =>
      cases rejected
      exact .other hash noFunction

/-- A text does not start both ways. -/
theorem not_startsHex_of_startsRgb {t : Text} (function : StartsRgb t) : ¬StartsHex t := by
  rintro ⟨digits, trimmed⟩
  rw [StartsRgb, ← trimmed] at function
  obtain ⟨rest, same⟩ := function
  cases same

/-- The text of a colour is its canonical form.  It is a hash with six lowercase digits; it
resolves to the colour, and so does each of its hexadecimal spellings, in any letter case and
with any blanks around it; and different colours have different texts.  A text that is no colour
is reported as it was given, with the kind of error that its start decides. -/
theorem canonicalize_canonical :
    (∀ t color, canonicalize t = .ok color →
      IsKey color.text ∧ canonicalize color.text = .ok color ∧
      ∀ front u back, (∀ c ∈ front, isBlank c = true) → (∀ c ∈ back, isBlank c = true) →
        Spells color.text u → canonicalize (front ++ (u ++ back)) = .ok color) ∧
    (∀ a b : Color, a.text = b.text ↔ a = b) ∧
    ∀ t e, canonicalize t = .error e →
      e.token = t ∧
      ((∃ fault, e = .invalidHex t fault) ↔ StartsHex t) ∧
      ((∃ fault, e = .invalidRgb t fault) ↔ StartsRgb t) ∧
      (e = .unsupported t ↔ ¬StartsHex t ∧ ¬StartsRgb t) := by
  refine ⟨?_, fun a b => text_inj, ?_⟩
  · intro t color resolved
    refine ⟨isKey_text color, canonicalize_text color, ?_⟩
    intro front u back before behind spelled
    exact canonicalize_spelling before behind spelled
  · intro t e rejected
    cases rejects_canonicalize rejected with
    | hex hash fault =>
        have noFunction : ¬StartsRgb t :=
          fun function => not_startsHex_of_startsRgb function hash
        simp [ColorError.token, hash, noFunction]
    | rgb function fault =>
        simp [ColorError.token, function, not_startsHex_of_startsRgb function]
    | other noHash noFunction =>
        simp [ColorError.token, noHash, noFunction]

/-- A colour with pairs of equal digits. -/
def orange : Color := ⟨255, 170, 0⟩

/-- Three digits in mixed case between blanks are the colour, and one argument too few is reported
with the blanks around it. -/
theorem canonicalize_canonical_orange :
    canonicalize "\t#Fa0 ".toList = .ok orange ∧
      ∃ e, canonicalize " Rgb(1,2)".toList = .error e ∧ e.token = " Rgb(1,2)".toList ∧
        ∃ fault, e = .invalidRgb " Rgb(1,2)".toList fault := by
  obtain ⟨resolved, -, rejected⟩ := canonicalize_canonical
  constructor
  · obtain ⟨-, -, spellings⟩ := resolved _ orange (canonicalize_text orange)
    have short : Spells orange.text "#Fa0".toList := .short (r := 'f') (g := 'a') (b := '0') rfl rfl
    have front : ∀ c ∈ ['\t'], isBlank c = true := List.forall_mem_singleton.mpr rfl
    have back : ∀ c ∈ [' '], isBlank c = true := List.forall_mem_singleton.mpr rfl
    exact spellings _ _ _ front back short
  · cases outcome : canonicalize " Rgb(1,2)".toList with
    | ok color =>
        have none : (canonicalize " Rgb(1,2)".toList).toOption = none := by decide +kernel
        rw [outcome] at none
        cases none
    | error e =>
        obtain ⟨whole, -, rgb, -⟩ := rejected _ e outcome
        have function : StartsRgb " Rgb(1,2)".toList := by decide
        exact ⟨e, rfl, whole, rgb.mpr function⟩

end Swatch
