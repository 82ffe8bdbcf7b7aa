/-
Module: Swatch.Proofs.Escaping
Purpose: What the escapes of a name, a string or an address stand for is read back, whatever
  follows.
Main exports:
  readEscape_code, readName_nameText, readName_identText, startsName_identText,
  readString_spelled, readUrlBody_spelled, zero_notMem_readName
-/
import Swatch.Proofs.Tokens
import Swatch.Token.Print

namespace Swatch

/-!
### Characters that need an escape
-/

theorem isControl_iff {c : Char} : isControl c = true ↔ c.toNat < 32 ∨ c.toNat = 127 := by
  simp [isControl]

/-- The ends of lines are controls. -/
theorem isNewline_of_not_isControl {c : Char} (other : ¬isControl c = true) :
    isNewline c = false := by
  rw [isControl_iff] at other
  have codes : isNewline c = true ↔ c.toNat = 10 ∨ c.toNat = 13 ∨ c.toNat = 12 := by
    simp [isNewline, ← Char.toNat_inj, or_assoc]
  rw [Bool.eq_false_iff, ne_eq, codes]
  omega

/-- Whether a character of a name is written as it is. -/
def isPlainNameChar (c : Char) : Bool :=
  c.isAlphanum || c == '_' || c == '-' || 0x80 ≤ c.toNat

theorem isPlainNameChar_iff {c : Char} :
    isPlainNameChar c = true ↔
      (65 ≤ c.toNat ∧ c.toNat ≤ 90) ∨ (97 ≤ c.toNat ∧ c.toNat ≤ 122) ∨
        (48 ≤ c.toNat ∧ c.toNat ≤ 57) ∨ c.toNat = 95 ∨ c.toNat = 45 ∨ 128 ≤ c.toNat := by
  simp [isPlainNameChar, Char.isAlphanum, isAlpha_iff, isDigit_iff, ← Char.toNat_inj, or_assoc]

/-- Hexadecimal digits need no escape. -/
theorem isHexDigit_of_not_isPlainNameChar {c : Char} (other : ¬isPlainNameChar c = true) :
    isHexDigit c = false := by
  rw [isPlainNameChar_iff] at other
  rw [Bool.eq_false_iff, ne_eq, isHexDigit_iff]
  omega

/-- A character that is written as it is stands in a name. -/
theorem isNameChar_of_isPlainNameChar {c : Char} (plain : isPlainNameChar c = true) :
    isNameChar c = true := by
  rw [isPlainNameChar_iff] at plain
  simp only [isNameChar, Bool.or_eq_true, isNameStart_iff, isDigit_iff, beq_iff_eq,
    ← Char.toNat_inj]
  simp only [Char.reduceToNat]
  omega

/-- A character that is written as it is and that is no digit and no hyphen starts a name. -/
theorem isNameStart_of_isPlainNameChar {c : Char} (plain : isPlainNameChar c = true)
    (digit : c.isDigit = false) (hyphen : c ≠ '-') : isNameStart c = true := by
  rw [isPlainNameChar_iff] at plain
  rw [Bool.eq_false_iff, ne_eq, isDigit_iff] at digit
  have other : c.toNat ≠ 45 := fun same => hyphen (Char.toNat_inj.mp same)
  rw [isNameStart_iff]
  omega

/-- The three ways in which a character of a name is written. -/
theorem nameCharText_cases {c : Char} (nonzero : c ≠ '\x00') :
    (isPlainNameChar c = true ∧ nameCharText c = [c]) ∨
      (c.toNat < 128 ∧ nameCharText c = hexEscape c) ∨
      (isHexDigit c = false ∧ isNewline c = false ∧ nameCharText c = ['\\', c]) := by
  have spelled : nameCharText c =
      if isPlainNameChar c = true then [c]
      else if isControl c = true then hexEscape c else ['\\', c] :=
    if_neg nonzero
  by_cases plain : isPlainNameChar c = true
  · rw [if_pos plain] at spelled
    exact .inl ⟨plain, spelled⟩
  · rw [if_neg plain] at spelled
    by_cases control : isControl c = true
    · rw [if_pos control] at spelled
      rw [isControl_iff] at control
      exact .inr (.inl ⟨by omega, spelled⟩)
    · rw [if_neg control] at spelled
      exact .inr (.inr ⟨isHexDigit_of_not_isPlainNameChar plain,
        isNewline_of_not_isControl control, spelled⟩)

/-!
### Escapes
-/

/-- Hexadecimal digits are read up to a character that is none. -/
theorem readHex_run {digits rest : Text} {most : Nat} (sofar : Nat)
    (all : ∀ c ∈ digits, isHexDigit c = true) (short : digits.length ≤ most)
    (stops : Stops isHexDigit rest) :
    readHex sofar most (digits ++ rest) =
      (digits.foldl (fun n c => 16 * n + hexValue c) sofar, digits.length) := by
  induction digits generalizing sofar most with
  | nil =>
      cases most with
      | zero => rfl
      | succ most =>
          cases rest with
          | nil => rfl
          | cons c rest => simp [readHex, stops_cons.mp stops]
  | cons c digits ih =>
      cases most with
      | zero => simp at short
      | succ most =>
          have shorter : digits.length ≤ most := Nat.le_of_succ_le_succ short
          rw [List.cons_append, readHex, if_pos (all c (by simp)),
            ih _ (fun d member => all d (List.mem_cons_of_mem c member)) shorter]
          rfl

/-- The digits of a code point in the ASCII range. -/
theorem hexadecimal_ascii {n : Nat} (ascii : n < 128) :
    (∀ c ∈ hexadecimal n, isHexDigit c = true ∧ isNewline c = false) ∧
      (hexadecimal n).length ≤ 6 ∧ hexadecimal n ≠ [] ∧
      (hexadecimal n).foldl (fun m c => 16 * m + hexValue c) 0 = n := by
  have all : ∀ n : Fin 128,
      ((hexadecimal n).all fun c => isHexDigit c && !isNewline c) = true ∧
        (hexadecimal n).length ≤ 6 ∧ hexadecimal n ≠ [] ∧
        (hexadecimal n).foldl (fun m c => 16 * m + hexValue c) 0 = n := by
    decide +kernel
  obtain ⟨digits, others⟩ := all ⟨n, ascii⟩
  exact ⟨fun c member => by simpa using List.all_eq_true.mp digits c member, others⟩

theorem charOfCode_toNat {c : Char} (nonzero : c ≠ '\x00') : charOfCode c.toNat = c := by
  have positive : c.toNat ≠ 0 := fun same => nonzero (Char.toNat_inj.mp same)
  rw [charOfCode, if_pos ⟨positive, c.valid⟩, Char.ofNat_toNat]

/-- A code point and the space behind it stand for the character. -/
theorem readEscape_code {c : Char} (ascii : c.toNat < 128) (nonzero : c ≠ '\x00')
    (rest : Text) :
    readEscape (hexadecimal c.toNat ++ ' ' :: rest) =
      (c, (hexadecimal c.toNat).length + 1) := by
  obtain ⟨digits, short, nonempty, value⟩ := hexadecimal_ascii ascii
  have stops : Stops isHexDigit (' ' :: rest) := stops_cons.mpr (by decide)
  have read := readHex_run 0 (fun d member => (digits d member).1) short stops
  cases spelled : hexadecimal c.toNat with
  | nil => exact absurd spelled nonempty
  | cons d more =>
      rw [spelled] at digits read value
      rw [List.cons_append] at read ⊢
      rw [readEscape, if_pos (digits d (by simp)).1, read, value]
      dsimp only
      rw [← List.cons_append, List.drop_left, charOfCode_toNat nonzero]
      rfl

/-- A character that is no hexadecimal digit stands for itself. -/
theorem readEscape_itself {c : Char} (digit : isHexDigit c = false) (nonzero : c ≠ '\x00')
    (rest : Text) : readEscape (c :: rest) = (c, 1) := by
  rw [readEscape, digit, kept, if_neg nonzero]
  rfl

/-- No digit of a code point ends a line. -/
theorem startsNewline_code {c : Char} (ascii : c.toNat < 128) (rest : Text) :
    startsNewline (hexadecimal c.toNat ++ rest) = false := by
  obtain ⟨digits, -, nonempty, -⟩ := hexadecimal_ascii ascii
  cases spelled : hexadecimal c.toNat with
  | nil => exact absurd spelled nonempty
  | cons d more =>
      rw [spelled] at digits
      exact (digits d (by simp)).2

/-!
### Names
-/

/-- A name stops where nothing goes on with it. -/
theorem readName_stop {rest : Text} (stops : Stops continuesName rest) :
    readName rest = ([], 0) :=
  readName_run (List.forall_mem_nil _) stops

/-- An escape adds its character to the name. -/
theorem readName_escape {s : Text} {c : Char} {n : Nat} (newline : startsNewline s = false)
    (escape : readEscape s = (c, n)) :
    readName ('\\' :: s) =
      (c :: (readName (s.drop n)).1, 1 + n + (readName (s.drop n)).2) := by
  rw [readName, if_pos rfl, newline, escape]
  rfl

theorem drop_code (n : Nat) (rest : Text) :
    (hexadecimal n ++ ' ' :: rest).drop ((hexadecimal n).length + 1) = rest := by
  rw [List.append_cons]
  exact List.drop_left' List.length_append

/-- A character that is written with its code point adds itself to the name. -/
theorem readName_hexEscape {c : Char} (ascii : c.toNat < 128) (nonzero : c ≠ '\x00')
    (rest : Text) :
    readName (hexEscape c ++ rest) =
      (c :: (readName rest).1, (hexEscape c).length + (readName rest).2) := by
  have spelled : hexEscape c ++ rest = '\\' :: (hexadecimal c.toNat ++ ' ' :: rest) := by
    simp [hexEscape]
  rw [spelled, readName_escape (startsNewline_code ascii _) (readEscape_code ascii nonzero rest),
    drop_code, hexEscape, List.length_cons, List.length_append]
  simp [Nat.add_comm 1]

/-- A character adds itself to the name in the way it is written. -/
theorem readName_nameCharText {c : Char} (nonzero : c ≠ '\x00') (rest : Text) :
    readName (nameCharText c ++ rest) =
      (c :: (readName rest).1, (nameCharText c).length + (readName rest).2) := by
  rcases nameCharText_cases nonzero with
    ⟨plain, spelled⟩ | ⟨ascii, spelled⟩ | ⟨digit, newline, spelled⟩
  · have escape : c ≠ '\\' := ne_of_class plain (by decide)
    rw [spelled, List.singleton_append, readName, if_neg escape,
      if_pos (isNameChar_of_isPlainNameChar plain), kept, if_neg nonzero]
    rfl
  · rw [spelled]
    exact readName_hexEscape ascii nonzero rest
  · rw [spelled]
    exact readName_escape (s := c :: rest) newline (readEscape_itself digit nonzero rest)

/-- The characters of a name add themselves in their order. -/
theorem readName_nameText {name : Text} (nonzero : '\x00' ∉ name) (rest : Text) :
    readName (nameText name ++ rest) =
      (name ++ (readName rest).1, (nameText name).length + (readName rest).2) := by
  induction name with
  | nil => simp [nameText]
  | cons c name ih =>
      rw [List.mem_cons, not_or] at nonzero
      have spelled : nameText (c :: name) = nameCharText c ++ nameText name := rfl
      rw [spelled, List.append_assoc, readName_nameCharText (Ne.symm nonzero.1), ih nonzero.2,
        List.length_append, Nat.add_assoc, List.cons_append]

theorem readName_leadText {name : Text} (nonzero : '\x00' ∉ name) (rest : Text) :
    readName (leadText name ++ rest) =
      (name ++ (readName rest).1, (leadText name).length + (readName rest).2) := by
  cases name with
  | nil => simp [leadText]
  | cons c name =>
      rw [leadText]
      split
      next digit =>
        rw [List.mem_cons, not_or] at nonzero
        have ascii : c.toNat < 128 := by
          rw [isDigit_iff] at digit
          omega
        rw [List.append_assoc, readName_hexEscape ascii (Ne.symm nonzero.1),
          readName_nameText nonzero.2, List.length_append, Nat.add_assoc, List.cons_append]
      next => exact readName_nameText nonzero rest

/-- A hyphen adds itself to the name. -/
theorem readName_hyphen (rest : Text) :
    readName ('-' :: rest) = ('-' :: (readName rest).1, 1 + (readName rest).2) := by
  rw [readName, if_neg (by decide), if_pos (by decide)]
  rfl

theorem readName_identText {name : Text} (nonzero : '\x00' ∉ name) (rest : Text) :
    readName (identText name ++ rest) =
      (name ++ (readName rest).1, (identText name).length + (readName rest).2) := by
  rw [identText.eq_def]
  split
  next more =>
    exact @readName_nameText ('-' :: '-' :: more) nonzero rest
  next => exact readName_escape (s := '-' :: rest) rfl (readEscape_itself rfl (by decide) rest)
  next more _ _ =>
    have tail : '\x00' ∉ more := fun member => nonzero (List.mem_cons_of_mem _ member)
    rw [List.cons_append, readName_hyphen, readName_leadText tail, List.length_cons,
      List.cons_append, ← Nat.add_assoc, Nat.add_comm 1]
  next => exact readName_leadText nonzero rest

/-- A character that a name, or an escape at its start, starts with. -/
def isWordStart (c : Char) : Bool := isNameStart c || c == '-' || c == '\\'

theorem isWordStart_iff {c : Char} :
    isWordStart c = true ↔ isNameStart c = true ∨ c = '-' ∨ c = '\\' := by
  simp [isWordStart, or_assoc]

/-- A digit starts no word. -/
theorem isWordStart_of_isDigit {c : Char} (digit : c.isDigit = true) : isWordStart c = false := by
  rw [isDigit_iff] at digit
  rw [Bool.eq_false_iff, ne_eq, isWordStart_iff, isNameStart_iff, ← Char.toNat_inj,
    ← Char.toNat_inj]
  simp only [Char.reduceToNat]
  omega

theorem isWordStart_of_startsName {c : Char} {s : Text} (starts : startsName (c :: s) = true) :
    isWordStart c = true := by
  rw [isWordStart_iff]
  by_cases hyphen : c = '-'
  · exact .inr (.inl hyphen)
  · by_cases escape : c = '\\'
    · exact .inr (.inr escape)
    · rw [startsName.eq_3 c s (fun _ _ same _ => hyphen same) escape] at starts
      exact .inl starts

/-- After a hyphen any of these characters counts. -/
theorem startsName_hyphen {c : Char} (s : Text) :
    startsName ('-' :: c :: s) = isWordStart c :=
  rfl

theorem not_startsName_hyphen_iff {s : Text} :
    startsName ('-' :: s) = false ↔ Stops isWordStart s := by
  cases s with
  | nil => exact iff_of_true rfl rfl
  | cons c s => rw [startsName_hyphen, stops_cons]

theorem startsName_escape {s : Text} (newline : startsNewline s = false) :
    startsName ('\\' :: s) = true := by
  rw [startsName, newline]
  rfl

theorem startsName_hexEscape {c : Char} (ascii : c.toNat < 128) (rest : Text) :
    startsName (hexEscape c ++ rest) = true := by
  rw [hexEscape, List.cons_append, List.append_assoc]
  exact startsName_escape (startsNewline_code ascii _)

/-- A name without a hyphen at its start is spelled so that a name starts there. -/
theorem startsName_leadText {c : Char} {name : Text} (hyphen : c ≠ '-')
    (nonzero : c ≠ '\x00') (rest : Text) :
    startsName (leadText (c :: name) ++ rest) = true := by
  rw [leadText]
  split
  next digit =>
    have ascii : c.toNat < 128 := by
      rw [isDigit_iff] at digit
      omega
    rw [List.append_assoc]
    exact startsName_hexEscape ascii _
  next digit =>
    have spelled : nameText (c :: name) = nameCharText c ++ nameText name := rfl
    rw [spelled, List.append_assoc]
    rcases nameCharText_cases nonzero with
      ⟨plain, spelled⟩ | ⟨ascii, spelled⟩ | ⟨-, newline, spelled⟩
    · rw [spelled]
      exact startsName_of_isNameStart _
        (isNameStart_of_isPlainNameChar plain (Bool.eq_false_iff.mpr digit) hyphen)
    · rw [spelled]
      exact startsName_hexEscape ascii _
    · rw [spelled]
      exact startsName_escape newline

/-- A name is spelled so that a name starts there. -/
theorem startsName_identText {name : Text} (nonempty : name ≠ []) (nonzero : '\x00' ∉ name)
    (rest : Text) : startsName (identText name ++ rest) = true := by
  rw [identText.eq_def]
  split
  next more => exact startsName_hyphen _
  next => exact startsName_escape rfl
  next more second last =>
    cases more with
    | nil => exact absurd rfl last
    | cons c more =>
        have hyphen : c ≠ '-' := fun same => second more (by rw [same])
        have starts := @startsName_leadText _ more hyphen
          (fun same => nonzero (by simp [same])) rest
        cases spelled : leadText (c :: more) ++ rest with
        | nil =>
            rw [spelled] at starts
            cases starts
        | cons d tail =>
            rw [spelled] at starts
            rw [List.cons_append, spelled, startsName_hyphen]
            exact isWordStart_of_startsName starts
  next _ _ first =>
    cases name with
    | nil => exact absurd rfl nonempty
    | cons c name =>
        exact startsName_leadText (fun same => first name (by rw [same]))
          (fun same => nonzero (by simp [same])) rest

/-!
### Strings
-/

/-- An escape adds its character to the string. -/
theorem readString_escape {s : Text} {c : Char} {n : Nat} (nonempty : s ≠ [])
    (newline : startsNewline s = false) (escape : readEscape s = (c, n)) :
    readString '"' ('\\' :: s) =
      ((c :: (readString '"' (s.drop n)).1.1, (readString '"' (s.drop n)).1.2),
        1 + n + (readString '"' (s.drop n)).2) := by
  have filled : s.isEmpty = false := by simpa using nonempty
  rw [readString, if_neg (by decide), if_neg (by decide), if_pos rfl, filled, newline, escape]
  rfl

/-- A character adds itself to the string in the way it is written. -/
theorem readString_charText {c : Char} (nonzero : c ≠ '\x00') (rest : Text) :
    readString '"' (stringCharText c ++ rest) =
      ((c :: (readString '"' rest).1.1, (readString '"' rest).1.2),
        (stringCharText c).length + (readString '"' rest).2) := by
  rw [stringCharText]
  by_cases mark : (c = '"' || c = '\\') = true
  · rw [if_pos mark]
    have digit : isHexDigit c = false ∧ isNewline c = false := by
      rw [Bool.or_eq_true, decide_eq_true_eq, decide_eq_true_eq] at mark
      rcases mark with rfl | rfl <;> decide
    exact readString_escape (s := c :: rest) nofun digit.2
      (readEscape_itself digit.1 nonzero rest)
  · rw [if_neg mark, if_neg nonzero]
    by_cases control : isControl c = true
    · rw [if_pos control]
      have ascii : c.toNat < 128 := by
        rw [isControl_iff] at control
        omega
      have spelled : hexEscape c ++ rest = '\\' :: (hexadecimal c.toNat ++ ' ' :: rest) := by
        simp [hexEscape]
      rw [spelled, readString_escape (by simp) (startsNewline_code ascii _)
        (readEscape_code ascii nonzero rest), drop_code]
      simp [hexEscape, Nat.add_comm 1]
    · rw [if_neg control]
      rw [Bool.or_eq_true, decide_eq_true_eq, decide_eq_true_eq, not_or] at mark
      have newline : ¬isNewline c = true := by simp [isNewline_of_not_isControl control]
      rw [List.singleton_append, readString, if_neg mark.1, if_neg newline, if_neg mark.2,
        kept, if_neg nonzero]
      rfl

/-- A string is read back up to its closing mark. -/
theorem readString_spelled {value : Text} (nonzero : '\x00' ∉ value) (rest : Text) :
    readString '"' (value.flatMap stringCharText ++ '"' :: rest) =
      ((value, false), (value.flatMap stringCharText).length + 1) := by
  induction value with
  | nil =>
      rw [List.flatMap_nil, List.nil_append, readString, if_pos rfl]
      rfl
  | cons c value ih =>
      rw [List.mem_cons, not_or] at nonzero
      rw [List.flatMap_cons, List.append_assoc, readString_charText (Ne.symm nonzero.1),
        ih nonzero.2, List.length_append, Nat.add_assoc]

/-!
### Addresses
-/

/-- An escape adds its character to the address. -/
theorem readUrlBody_escape {s : Text} {c : Char} {n : Nat} (newline : startsNewline s = false)
    (escape : readEscape s = (c, n)) :
    readUrlBody ('\\' :: s) =
      ((readUrlBody (s.drop n)).1.map (c :: ·), 1 + n + (readUrlBody (s.drop n)).2) := by
  rw [readUrlBody, if_neg (by decide), if_neg (by decide), if_neg (by decide), if_pos rfl,
    newline, escape]
  rfl

/-- A character adds itself to the address in the way it is written. -/
theorem readUrlBody_charText {c : Char} (nonzero : c ≠ '\x00') (rest : Text) :
    readUrlBody (urlCharText c ++ rest) =
      ((readUrlBody rest).1.map (c :: ·), (urlCharText c).length + (readUrlBody rest).2) := by
  rw [urlCharText]
  by_cases control : (isControl c || c == ' ') = true
  · rw [if_pos control]
    rw [Bool.or_eq_true, isControl_iff, beq_iff_eq, ← Char.toNat_inj] at control
    have ascii : c.toNat < 128 := by
      simp only [Char.reduceToNat] at control
      omega
    have spelled : hexEscape c ++ rest = '\\' :: (hexadecimal c.toNat ++ ' ' :: rest) := by
      simp [hexEscape]
    rw [spelled, readUrlBody_escape (startsNewline_code ascii _)
      (readEscape_code ascii nonzero rest), drop_code]
    simp [hexEscape, Nat.add_comm 1]
  · rw [if_neg control]
    rw [Bool.or_eq_true, not_or, beq_iff_eq] at control
    by_cases mark : (c == '(' || c == ')' || c == '"' || c == '\'' || c == '\\') = true
    · rw [if_pos mark]
      have digit : isHexDigit c = false ∧ isNewline c = false := by
        simp only [Bool.or_eq_true, beq_iff_eq] at mark
        rcases mark with (((rfl | rfl) | rfl) | rfl) | rfl <;> decide
      exact readUrlBody_escape (s := c :: rest) digit.2 (readEscape_itself digit.1 nonzero rest)
    · rw [if_neg mark]
      simp only [Bool.or_eq_true, beq_iff_eq, not_or] at mark
      obtain ⟨⟨⟨⟨open_, close⟩, double⟩, single⟩, escape⟩ := mark
      have zero : c.toNat ≠ 0 := fun same => nonzero (Char.toNat_inj.mp same)
      rw [isControl_iff, ← Char.toNat_inj] at control
      simp only [Char.reduceToNat] at control
      have space : ¬isSpace c = true := by
        rw [isSpace_iff]
        omega
      have breaker : ¬isUrlBreaker c = true := by
        simp only [isUrlBreaker, Bool.or_eq_true, Bool.and_eq_true, beq_iff_eq,
          decide_eq_true_eq, double, single, open_, false_or]
        omega
      rw [List.singleton_append, readUrlBody, if_neg close, if_neg space, if_neg breaker,
        if_neg escape, kept, if_neg nonzero]
      rfl

theorem readUrlBody_spelled {value : Text} (nonzero : '\x00' ∉ value) (rest : Text) :
    readUrlBody (value.flatMap urlCharText ++ ')' :: rest) =
      (some value, (value.flatMap urlCharText).length + 1) := by
  induction value with
  | nil =>
      rw [List.flatMap_nil, List.nil_append, readUrlBody, if_pos rfl]
      rfl
  | cons c value ih =>
      rw [List.mem_cons, not_or] at nonzero
      rw [List.flatMap_cons, List.append_assoc, readUrlBody_charText (Ne.symm nonzero.1),
        ih nonzero.2, List.length_append, Nat.add_assoc]
      rfl

/-- No character of an address is written with a space or a quote at the start. -/
theorem head_urlCharText (c : Char) : ∃ d more, urlCharText c = d :: more ∧
    isSpace d = false ∧ d ≠ '"' ∧ d ≠ '\'' := by
  rw [urlCharText]
  split
  next => exact ⟨_, _, rfl, by decide, by decide, by decide⟩
  next control =>
    split
    next => exact ⟨_, _, rfl, by decide, by decide, by decide⟩
    next mark =>
      rw [Bool.or_eq_true, not_or, isControl_iff, beq_iff_eq, ← Char.toNat_inj] at control
      simp only [Char.reduceToNat] at control
      simp only [Bool.or_eq_true, beq_iff_eq, not_or] at mark
      refine ⟨c, [], rfl, ?_, mark.1.1.2, mark.1.2⟩
      rw [Bool.eq_false_iff, ne_eq, isSpace_iff]
      omega

/-- An address is read back up to its closing bracket. -/
theorem readUrl_spelled {value : Text} (nonzero : '\x00' ∉ value) (rest : Text) :
    readUrl (value.flatMap urlCharText ++ ')' :: rest) =
      some (.url value, (value.flatMap urlCharText).length + 1) := by
  have head : ∃ d more, value.flatMap urlCharText ++ ')' :: rest = d :: more ∧
      isSpace d = false ∧ d ≠ '"' ∧ d ≠ '\'' := by
    cases value with
    | nil => exact ⟨')', rest, rfl, by decide, by decide, by decide⟩
    | cons c value =>
        obtain ⟨d, more, spelled, head⟩ := head_urlCharText c
        rw [List.flatMap_cons, spelled]
        exact ⟨d, _, rfl, head⟩
  have read := readUrlBody_spelled nonzero rest
  obtain ⟨d, more, spelled, space, double, single⟩ := head
  rw [spelled] at read ⊢
  have kept : (d :: more).dropWhile isSpace = d :: more :=
    List.dropWhile_cons_of_neg (by simp [space])
  have none : (d :: more).takeWhile isSpace = [] :=
    List.takeWhile_cons_of_neg (by simp [space])
  rw [readUrl, kept, none, if_neg (by simp [double, single]), read]
  simp

/-!
### What is read holds no NUL

NUL stands for itself nowhere: it is read as the replacement, and so is its code point.
-/

theorem kept_ne_zero (c : Char) : kept c ≠ '\x00' := by
  rw [kept]
  split
  next => decide
  next nonzero => exact nonzero

theorem charOfCode_ne_zero (n : Nat) : charOfCode n ≠ '\x00' := by
  rw [charOfCode]
  split
  next valid =>
    intro same
    apply valid.1
    have code := congrArg Char.toNat same
    rw [Char.ofNat, dif_pos valid.2] at code
    exact code
  next => decide

theorem readEscape_ne_zero (s : Text) : (readEscape s).1 ≠ '\x00' := by
  cases s with
  | nil => decide
  | cons c s =>
      rw [readEscape]
      split
      next => exact charOfCode_ne_zero _
      next => exact kept_ne_zero c

theorem zero_notMem_readName (s : Text) : '\x00' ∉ (readName s).1 := by
  fun_induction readName s with
  | case1 => exact List.not_mem_nil
  | case2 => exact List.not_mem_nil
  | case3 s newline d escape escaped name taken read ih =>
      rw [read] at ih
      have first := readEscape_ne_zero s
      rw [escaped] at first
      exact List.not_mem_cons_of_ne_of_not_mem first.symm ih
  | case4 c s escape inside name taken read ih =>
      rw [read] at ih
      exact List.not_mem_cons_of_ne_of_not_mem (kept_ne_zero c).symm ih
  | case5 => exact List.not_mem_nil

theorem zero_notMem_readString (mark : Char) (s : Text) : '\x00' ∉ (readString mark s).1.1 := by
  fun_induction readString mark s with
  | case1 => exact List.not_mem_nil
  | case2 => exact List.not_mem_nil
  | case3 => exact List.not_mem_nil
  | case4 => exact List.not_mem_nil
  | case5 s nonempty newline hidden value taken read _ _ ih =>
      rw [read] at ih
      exact ih
  | case6 s nonempty newline d escape escaped value broken taken read _ _ ih =>
      rw [read] at ih
      have first := readEscape_ne_zero s
      rw [escaped] at first
      exact List.not_mem_cons_of_ne_of_not_mem first.symm ih
  | case7 c s closing newline escape value broken taken read ih =>
      rw [read] at ih
      exact List.not_mem_cons_of_ne_of_not_mem (kept_ne_zero c).symm ih

theorem zero_notMem_readUrlBody (s : Text) :
    ∀ value ∈ (readUrlBody s).1, '\x00' ∉ value := by
  -- where the address is malformed there is no value
  fun_induction readUrlBody s with
  | case1 => simp
  | case2 => simp
  | case3 => simp
  | case4 => simp
  | case5 => simp
  | case6 => simp
  | case7 => simp
  | case8 s newline d escape escaped value taken read _ _ _ ih =>
      rw [read] at ih
      have first := readEscape_ne_zero s
      rw [escaped] at first
      intro whole found
      obtain ⟨rest, member, rfl⟩ := Option.map_eq_some_iff.mp found
      exact List.not_mem_cons_of_ne_of_not_mem first.symm (ih rest member)
  | case9 c s closing space breaker escape value taken read ih =>
      rw [read] at ih
      intro whole found
      obtain ⟨rest, member, rfl⟩ := Option.map_eq_some_iff.mp found
      exact List.not_mem_cons_of_ne_of_not_mem (kept_ne_zero c).symm (ih rest member)

end Swatch
