/-
Module: Swatch.Proofs.Locations
Purpose: The lines of a source text, and the lines and columns of its tokens.
Main exports:
  lines, units, CutsAt, cutsAt_scan, advance_append, lines_append, TokenAt, tokenAt_of_mem
-/
import Swatch.Proofs.Endings
import Swatch.Proofs.Kinds

namespace Swatch

/-!
### Lines
-/

/-- The lines of a text, without their ends.  A line ends at a line feed, a form feed, a carriage
return, or a carriage return with a line feed. -/
def lines : Text → List Text
  | [] => [[]]
  | '\r' :: '\n' :: s => [] :: lines s
  | c :: s => if isNewline c then [] :: lines s else (lines s).modifyHead (c :: ·)

/-- The UTF-16 code units of a text. -/
def units (s : Text) : Nat := s.foldr (fun c n => utf16Length c + n) 0

theorem units_append (s t : Text) : units (s ++ t) = units s + units t := by
  induction s with
  | nil => exact (Nat.zero_add _).symm
  | cons c s ih => exact (congrArg (utf16Length c + ·) ih).trans (Nat.add_assoc _ _ _).symm

/-- A text may be cut after its first `n` characters: the cut does not part a carriage return from
the line feed with which it ends one line. -/
def CutsAt (s : Text) (n : Nat) : Prop :=
  ∀ i, n = i + 1 → s[i]? = some '\r' → s[n]? ≠ some '\n'

section Cuts

variable {s : Text}

theorem cutsAt_zero (s : Text) : CutsAt s 0 := fun _ same => nomatch same

/-- A cut in what is left by a cut. -/
theorem CutsAt.add {m n : Nat} (first : CutsAt s m) (second : CutsAt (s.drop m) n) :
    CutsAt s (m + n) := by
  cases n with
  | zero => exact first
  | succ n =>
      intro i same carriage
      obtain rfl : m + n = i := Nat.succ.inj same
      rw [← List.getElem?_drop] at carriage ⊢
      exact second n rfl carriage

theorem cutsAt_one {c : Char} (other : c ≠ '\r') (s : Text) : CutsAt (c :: s) 1 := by
  intro i same carriage
  obtain rfl : 0 = i := Nat.succ.inj same
  exact absurd (Option.some.inj carriage) other

/-- A cut behind one more character. -/
theorem CutsAt.cons {c : Char} {n : Nat} (other : c ≠ '\r') (rest : CutsAt s n) :
    CutsAt (c :: s) (1 + n) :=
  (cutsAt_one other s).add rest

/-- A cut within what follows a character. -/
theorem CutsAt.tail {n : Nat} (rest : CutsAt s n) (inside : 0 < n) (c : Char) :
    CutsAt (c :: s) (1 + n) := by
  obtain ⟨m, rfl⟩ := Nat.exists_eq_add_one_of_ne_zero (Nat.ne_of_gt inside)
  intro i same carriage
  obtain rfl : m + 1 = i := by omega
  rw [Nat.add_comm]
  exact rest m rfl carriage

/-- A cut behind one more character and what follows it. -/
theorem CutsAt.cons_add {c : Char} {m n : Nat} (other : c ≠ '\r') (first : CutsAt s m)
    (rest : CutsAt (s.drop m) n) : CutsAt (c :: s) (1 + m + n) := by
  rw [Nat.add_assoc]
  exact (first.add rest).cons other

theorem cutsAt_of_notMem {n : Nat} (none : '\r' ∉ s.take n) : CutsAt s n := by
  intro i same carriage
  refine absurd (List.mem_of_getElem? (i := i) ?_) none
  rw [List.getElem?_take_of_lt (by omega)]
  exact carriage

theorem cutsAt_of_next {n : Nat} (next : (s.drop n).head? ≠ some '\n') : CutsAt s n := by
  intro i same carriage
  rw [List.head?_drop] at next
  exact next

/-!
### No token ends within the end of a line
-/

theorem cutsAt_newlineLength (s : Text) : CutsAt s (newlineLength s) := by
  rw [newlineLength.eq_def]
  split
  next s =>
    intro i same carriage
    obtain rfl : 1 = i := Nat.succ.inj same
    exact absurd (Option.some.inj carriage) (by decide)
  next c s alone =>
    split
    next =>
      intro i same carriage feed
      obtain rfl : 0 = i := Nat.succ.inj same
      obtain rfl := Option.some.inj carriage
      cases s with
      | nil => cases feed
      | cons d s => exact alone s rfl (by rw [← Option.some.inj feed])
    next => exact cutsAt_zero _
  next => exact cutsAt_zero _

theorem cutsAt_spaceLength (s : Text) : CutsAt s (spaceLength s) := by
  rw [spaceLength.eq_def]
  split
  next c s =>
    split
    next => exact cutsAt_newlineLength (c :: s)
    next other =>
      split
      next =>
        refine cutsAt_one ?_ s
        rintro rfl
        exact other rfl
      next => exact cutsAt_zero _
  next => exact cutsAt_zero _

theorem cutsAt_readEscape (newline : startsNewline s = false) : CutsAt s (readEscape s).2 := by
  cases s with
  | nil => exact cutsAt_zero _
  | cons c s =>
      rw [readEscape]
      split
      next =>
        refine CutsAt.add (cutsAt_of_notMem fun member => ?_) (cutsAt_spaceLength _)
        cases isHexDigit_of_mem_take 0 6 member
      next =>
        refine cutsAt_one ?_ s
        rintro rfl
        cases newline

theorem cutsAt_readName (s : Text) : CutsAt s (readName s).2 := by
  fun_induction readName s with
  | case1 => exact cutsAt_zero _
  | case2 => exact cutsAt_zero _
  | case3 s newline d escape read name taken found ih =>
      rw [Bool.not_eq_true] at newline
      have inner := cutsAt_readEscape newline
      rw [read] at inner
      rw [found] at ih
      exact inner.cons_add (by decide) ih
  | case4 c s escape inside name taken found ih =>
      rw [found] at ih
      refine ih.cons ?_
      rintro rfl
      cases inside
  | case5 => exact cutsAt_zero _

theorem cutsAt_readString (mark : Char) (isMark : mark ≠ '\r') (s : Text) :
    CutsAt s (readString mark s).2 := by
  fun_induction readString mark s with
  | case1 => exact cutsAt_zero _
  | case2 s => exact cutsAt_one isMark s
  | case3 => exact cutsAt_zero _
  | case4 s => exact cutsAt_one (by decide) s
  | case5 s _ _ hidden value taken read _ _ ih =>
      rw [read] at ih
      exact (cutsAt_newlineLength s).cons_add (by decide) ih
  | case6 s _ newline d escape hidden value broken taken read _ _ ih =>
      rw [Bool.not_eq_true] at newline
      have inner := cutsAt_readEscape newline
      rw [hidden] at inner
      rw [read] at ih
      exact inner.cons_add (by decide) ih
  | case7 c s _ newline _ value broken taken read ih =>
      rw [read] at ih
      refine ih.cons ?_
      rintro rfl
      exact newline rfl

/-- White space ends before a character that is none. -/
theorem cutsAt_spaces (s : Text) : CutsAt s (s.takeWhile isSpace).length := by
  apply cutsAt_of_next
  rw [drop_length_takeWhile]
  intro feed
  have outside := List.head?_dropWhile_not isSpace s
  rw [feed] at outside
  cases outside

theorem cutsAt_cons_spaces {c : Char} (space : isSpace c = true) (s : Text) :
    CutsAt (c :: s) (1 + (s.takeWhile isSpace).length) := by
  have whole := cutsAt_spaces (c :: s)
  rwa [List.takeWhile_cons_of_pos space, List.length_cons, Nat.add_comm] at whole

/-- A malformed address goes up to a closing bracket. -/
theorem head?_drop_skipUrl (s : Text) :
    ∀ c ∈ (s.drop (skipUrl s)).head?, c = ')' := by
  fun_induction skipUrl s with
  | case1 => exact nofun
  | case2 s ih =>
      rw [Nat.add_comm]
      exact ih
  | case3 s ih =>
      rw [Nat.add_comm]
      exact ih
  | case4 s =>
      intro c same
      exact (Option.some.inj same).symm
  | case5 c s _ _ _ ih =>
      rw [Nat.add_comm]
      exact ih

/-- A malformed address is read up to a closing bracket. -/
theorem head?_drop_readUrlBody (s : Text) (malformed : (readUrlBody s).1 = none) :
    ∀ c ∈ (s.drop (readUrlBody s).2).head?, c = ')' := by
  fun_induction readUrlBody s with
  | case1 => cases malformed
  | case2 => cases malformed
  | case3 => cases malformed
  | case4 => cases malformed
  | case5 c s _ _ spaces d rest left =>
      have behind : (c :: s).drop (spaces + 1) = rest := by
        change s.drop (1 + (s.takeWhile isSpace).length) = rest
        rw [Nat.add_comm, ← List.drop_drop, drop_length_takeWhile, left]
        rfl
      rw [← List.drop_drop, behind]
      exact head?_drop_skipUrl rest
  | case6 c s =>
      rw [Nat.add_comm]
      exact head?_drop_skipUrl s
  | case7 s =>
      rw [Nat.add_comm]
      exact head?_drop_skipUrl s
  | case8 s _ d escape _ value taken read _ _ _ ih =>
      rw [read] at ih
      rw [Nat.add_assoc, Nat.add_comm, List.drop_succ_cons, ← List.drop_drop]
      exact ih (Option.map_eq_none_iff.mp malformed)
  | case9 c s _ _ _ _ value taken read ih =>
      rw [read] at ih
      rw [Nat.add_comm]
      exact ih (Option.map_eq_none_iff.mp malformed)

theorem cutsAt_readUrlBody (s : Text) : CutsAt s (readUrlBody s).2 := by
  by_cases malformed : (readUrlBody s).1 = none
  · apply cutsAt_of_next
    intro feed
    cases head?_drop_readUrlBody s malformed _ feed
  fun_induction readUrlBody s with
  | case1 => exact cutsAt_zero _
  | case2 s => exact cutsAt_one (by decide) s
  | case3 c s _ space => exact cutsAt_cons_spaces space s
  | case4 c s _ space spaces rest left =>
      refine (cutsAt_cons_spaces space s).add ?_
      rw [Nat.add_comm, List.drop_succ_cons, drop_length_takeWhile, left]
      exact cutsAt_one (by decide) rest
  | case5 => exact absurd rfl malformed
  | case6 => exact absurd rfl malformed
  | case7 => exact absurd rfl malformed
  | case8 s newline d escape hidden value taken read _ _ _ ih =>
      rw [Bool.not_eq_true] at newline
      have inner := cutsAt_readEscape newline
      rw [hidden] at inner
      rw [read] at ih
      exact inner.cons_add (by decide) (ih (mt Option.map_eq_none_iff.mpr malformed))
  | case9 c s _ space _ _ value taken read ih =>
      rw [read] at ih
      refine (ih (mt Option.map_eq_none_iff.mpr malformed)).cons ?_
      rintro rfl
      exact space rfl

theorem cutsAt_readComment (s : Text) : CutsAt s (readComment s).2 := by
  fun_induction readComment s with
  | case1 => exact cutsAt_zero _
  | case2 s => exact (cutsAt_one (by decide) _).add (cutsAt_one (by decide) s)
  | case3 c s _ text taken read ih =>
      cases s with
      | nil =>
          cases read
          exact cutsAt_of_next (Option.some_ne_none _).symm
      | cons d s =>
          have inside : 0 < (readComment (d :: s)).2 := by
            rw [readComment.eq_def]
            split
            next same => cases same
            next => exact Nat.two_pos
            next => exact Nat.add_pos_left Nat.one_pos _
          rw [read] at ih inside
          exact ih.tail inside c

theorem cutsAt_readNumeric (s : Text) : CutsAt s (readNumeric s).2 := by
  have number : CutsAt s (readWritten s).text.length := by
    refine cutsAt_of_notMem fun member => ?_
    rw [← List.prefix_iff_eq_take.mp (readWritten_isPrefix s)] at member
    exact absurd (class_of_mem_readWritten member) (by decide)
  rw [readNumeric]
  dsimp only
  split
  next percent =>
    obtain ⟨rest, left⟩ := List.head?_eq_some_iff.mp percent
    refine number.add ?_
    rw [left]
    exact cutsAt_one (by decide) rest
  next =>
    split
    next => exact number.add (cutsAt_readName _)
    next => exact number

theorem cutsAt_readUrl {found : Token × Nat} (read : readUrl s = some found) :
    CutsAt s found.2 := by
  rw [readUrl] at read
  split at read
  next => cases read
  next =>
    have spaces := cutsAt_spaces s
    split at read
    next value taken body =>
      cases read
      refine spaces.add ?_
      rw [drop_length_takeWhile]
      have inside := cutsAt_readUrlBody (s.dropWhile isSpace)
      rwa [body] at inside
    next taken body =>
      cases read
      have last := head?_drop_readUrlBody (s.dropWhile isSpace)
      have inside := cutsAt_readUrlBody (s.dropWhile isSpace)
      rw [body] at last inside
      rw [← drop_length_takeWhile] at inside last
      refine (spaces.add inside).add ?_
      rw [← List.drop_drop]
      cases behind : (s.drop (s.takeWhile isSpace).length).drop taken with
      | nil => exact cutsAt_of_next (by simp)
      | cons d rest =>
          rw [behind] at last
          obtain rfl := last rfl d rfl
          exact cutsAt_one (by decide) rest

theorem cutsAt_readWord (s : Text) : CutsAt s (readWord s).2 := by
  by_cases bracket : (s.drop (readName s).2).head? = some '('
  · obtain ⟨more, left⟩ := List.head?_eq_some_iff.mp bracket
    have opened : CutsAt s ((readName s).2 + 1) := by
      refine (cutsAt_readName s).add ?_
      rw [left]
      exact cutsAt_one (by decide) more
    rw [readWord_bracket left]
    split
    next token taken read =>
      split at read
      next =>
        refine opened.add ?_
        rw [← List.drop_drop, left]
        exact cutsAt_readUrl read
      next => cases read
    next => exact opened
  · rw [readWord_plain bracket]
    exact cutsAt_readName s

theorem cutsAt_readPunctuation {c : Char} (other : c ≠ '\r') (s : Text) :
    CutsAt (c :: s) (1 + (readPunctuation c s).2) := by
  have alone : CutsAt (c :: s) 1 := cutsAt_one other s
  rw [readPunctuation.eq_def]
  split
  any_goals exact alone
  next s => exact alone.add ((cutsAt_readComment s).cons (by decide))
  next s => exact alone.add ((cutsAt_one (by decide) _).add (cutsAt_one (by decide) s))
  next s =>
    have first : CutsAt ('!' :: '-' :: '-' :: s) 2 :=
      (cutsAt_one (by decide) _).add (cutsAt_one (by decide) _)
    exact alone.add (first.add (cutsAt_one (by decide) s))
  next =>
    split
    next => exact alone.add (cutsAt_one (by decide) _)
    next => exact alone

theorem cutsAt_scan (c : Char) (s : Text) : CutsAt (c :: s) (1 + (scan c s).2) := by
  have kind := scanned_scan c s
  generalize (scan c s).1 = t at kind
  generalize (scan c s).2 = taken at kind ⊢
  have other (quote : c = '"' ∨ c = '\'') : c ≠ '\r' := by
    rintro rfl
    exact absurd quote (by decide)
  cases kind with
  | space blank => exact cutsAt_cons_spaces blank s
  | string quote read =>
      have inside := cutsAt_readString c (other quote) s
      rw [read] at inside
      exact inside.cons (other quote)
  | badString quote read =>
      have inside := cutsAt_readString c (other quote) s
      rw [read] at inside
      exact inside.cons (other quote)
  | idHash => exact (cutsAt_readName s).cons (by decide)
  | hash => exact (cutsAt_readName s).cons (by decide)
  | loneHash => exact cutsAt_one (by decide) s
  | atKeyword => exact (cutsAt_readName s).cons (by decide)
  | loneAt => exact cutsAt_one (by decide) s
  | number starts =>
      rw [Nat.add_sub_cancel' (readNumeric_pos starts)]
      exact cutsAt_readNumeric (c :: s)
  | word _ starts =>
      rw [Nat.add_sub_cancel' (readWord_pos (startsName_of_startsWord starts))]
      exact cutsAt_readWord (c :: s)
  | mark space =>
      refine cutsAt_readPunctuation ?_ s
      rintro rfl
      cases space

end Cuts

/-!
### Lines and places
-/

theorem lines_ne_nil (s : Text) : lines s ≠ [] := by
  fun_induction lines s with
  | case1 => exact List.cons_ne_nil _ _
  | case2 => exact List.cons_ne_nil _ _
  | case3 => exact List.cons_ne_nil _ _
  | case4 c s _ _ ih => simpa using ih

/-- A character that ends no line stands in the first one. -/
theorem lines_cons {c : Char} (inside : isNewline c = false) {s right : Text} {after : List Text}
    (rest : lines s = right :: after) : lines (c :: s) = (c :: right) :: after := by
  rw [lines, inside, rest]
  · rfl
  · rintro s rfl
    cases inside

/-- A cut behind a character is one of what follows the character. -/
theorem CutsAt.of_cons {c : Char} {s : Text} {n : Nat} (cut : CutsAt (c :: s) (n + 1)) :
    CutsAt s n := by
  rintro i same carriage
  exact cut (i + 1) (congrArg (· + 1) same) carriage

/-- A carriage return before a cut is not followed by a line feed behind it. -/
theorem CutsAt.alone {c : Char} {s back : Text} (cut : CutsAt (c :: s ++ back) (c :: s).length)
    (single : ∀ rest, c = '\r' → s = '\n' :: rest → False) :
    ∀ rest, c = '\r' → s ++ back = '\n' :: rest → False := by
  rintro rest rfl same
  cases s with
  | nil =>
      rw [List.nil_append] at same
      subst same
      exact cut 0 rfl rfl rfl
  | cons d s =>
      obtain ⟨rfl, -⟩ := List.cons.inj same
      exact single s rfl rfl

/-- At a cut the last line of what stands before goes on with the first line of what follows. -/
theorem lines_append {front back : Text} (cut : CutsAt (front ++ back) front.length)
    {before after : List Text} {left right : Text} (first : lines front = before ++ [left])
    (second : lines back = right :: after) :
    lines (front ++ back) = before ++ (left ++ right) :: after := by
  fun_induction lines front generalizing before left with
  | case1 =>
      obtain ⟨rfl, rfl⟩ : before = [] ∧ left = [] := by
        rcases List.singleton_eq_append_iff.mp first with ⟨rfl, same⟩ | ⟨-, same⟩
        · exact ⟨rfl, (List.singleton_inj.mp same)⟩
        · cases same
      exact second
  | case2 s ih =>
      rw [List.cons_append, List.cons_append, lines]
      cases before with
      | nil => exact absurd (List.cons.inj first).2 (lines_ne_nil s)
      | cons b before =>
          obtain ⟨rfl, same⟩ := List.cons.inj first
          rw [ih cut.of_cons.of_cons same]
          rfl
  | case3 c s single newline ih =>
      rw [List.cons_append, lines.eq_3 c _ (cut.alone single), if_pos newline]
      cases before with
      | nil => exact absurd (List.cons.inj first).2 (lines_ne_nil s)
      | cons b before =>
          obtain ⟨rfl, same⟩ := List.cons.inj first
          rw [ih cut.of_cons same]
          rfl
  | case4 c s single inside ih =>
      rw [Bool.not_eq_true] at inside
      cases split : lines s with
      | nil => exact absurd split (lines_ne_nil s)
      | cons b rest =>
          rw [split] at first
          cases before with
          | nil =>
              obtain ⟨rfl, rfl⟩ := List.cons.inj first
              have last : lines s = [] ++ [b] := split
              exact lines_cons inside (ih cut.of_cons last)
          | cons line before =>
              obtain ⟨rfl, rfl⟩ := List.cons.inj first
              have last : lines s = (b :: before) ++ [left] := split
              exact lines_cons inside (ih cut.of_cons last)

/-- The place behind a text: as many lines down as it has line ends, and behind its last line. -/
theorem exists_advance (here : Position) (s : Text) :
    ∃ before last, lines s = before ++ [last] ∧
      here.advance s = ⟨here.line + before.length,
        (if before = [] then here.column else 1) + units last⟩ := by
  fun_induction Position.advance here s with
  | case1 here => exact ⟨[], [], rfl, rfl⟩
  | case2 here rest ih =>
      obtain ⟨before, last, split, place⟩ := ih
      refine ⟨[] :: before, last, ?_, ?_⟩
      · rw [lines, split]
        rfl
      · rw [place, List.length_cons, if_neg (List.cons_ne_nil _ _), ite_self]
        exact congrArg (Position.mk · _) (Nat.add_right_comm _ _ _)
  | case3 here c rest single newline ih =>
      obtain ⟨before, last, split, place⟩ := ih
      refine ⟨[] :: before, last, ?_, ?_⟩
      · rw [lines.eq_3 c rest single, if_pos newline, split]
        rfl
      · rw [place, List.length_cons, if_neg (List.cons_ne_nil _ _), ite_self]
        exact congrArg (Position.mk · _) (Nat.add_right_comm _ _ _)
  | case4 here c rest single inside ih =>
      obtain ⟨before, last, split, place⟩ := ih
      cases before with
      | nil =>
          refine ⟨[], c :: last, ?_, ?_⟩
          · exact lines_cons (Bool.not_eq_true _ ▸ inside) split
          · rw [place, if_pos rfl, if_pos rfl, units, units, List.foldr_cons, Nat.add_assoc]
      | cons b before =>
          refine ⟨(c :: b) :: before, last, ?_, ?_⟩
          · exact lines_cons (Bool.not_eq_true _ ▸ inside) split
          · exact place

/-- Reading on behind a cut is reading on from the place of the cut. -/
theorem advance_append {front back : Text} (here : Position)
    (cut : CutsAt (front ++ back) front.length) :
    here.advance (front ++ back) = (here.advance front).advance back := by
  obtain ⟨before, left, first, start⟩ := exists_advance here front
  obtain ⟨between, last, second, stop⟩ := exists_advance (here.advance front) back
  obtain ⟨all, final, whole, place⟩ := exists_advance here (front ++ back)
  cases between with
  | nil =>
      have joined := lines_append cut first second
      obtain ⟨rfl, same⟩ := List.append_inj' (whole.symm.trans joined) rfl
      obtain rfl := List.singleton_inj.mp same
      rw [place, stop, start, units_append]
      simp [Nat.add_assoc]
  | cons right between =>
      have joined : lines (front ++ back) = before ++ (left ++ right) :: between ++ [last] := by
        rw [lines_append cut first second, List.append_assoc]
        rfl
      obtain ⟨rfl, same⟩ := List.append_inj' (whole.symm.trans joined) rfl
      obtain rfl := List.singleton_inj.mp same
      rw [place, stop, start]
      simp [Nat.add_assoc]

/-- What is known of a cut is known within the part of the text up to it. -/
theorem CutsAt.of_append {s t : Text} {n : Nat} (cut : CutsAt (s ++ t) n) : CutsAt s n := by
  intro i same carriage feed
  have inside : n < s.length := (List.getElem?_eq_some_iff.mp feed).1
  refine cut i same ?_ ?_
  · rw [List.getElem?_append_left (by omega)]
    exact carriage
  · rw [List.getElem?_append_left inside]
    exact feed

/-!
### Tokens of a source
-/

/-- A lexeme of a text that starts at a place: what stands before it, the character it starts with,
and what follows that. -/
structure StartsAt (here : Position) (s : Text) (l : Lexeme) (front : Text) (c : Char)
    (rest : Text) : Prop where
  text : s = front ++ c :: rest
  cut : CutsAt s front.length
  token : l.token = (scan c rest).1
  start : l.start = here.advance front
  lexemes : ∃ before after, lexemesFrom here s = before ++ l :: after ∧
    before.flatMap Lexeme.text = front

theorem exists_startsAt {here : Position} {s : Text} {l : Lexeme}
    (member : l ∈ lexemesFrom here s) : ∃ front c rest, StartsAt here s l front c rest := by
  fun_induction lexemesFrom here s with
  | case1 => cases member
  | case2 here c s token taken read text ih =>
      have first : lexemesFrom here (c :: s) =
          ⟨token, text, here⟩ :: lexemesFrom (here.advance text) (s.drop taken) := by
        rw [lexemesFrom, read]
      rcases List.mem_cons.mp member with rfl | later
      · exact ⟨[], c, s, rfl, cutsAt_zero _, by rw [read], rfl, [], _, first, rfl⟩
      · obtain ⟨front, d, rest, starts⟩ := ih later
        obtain ⟨before, after, split, spelled⟩ := starts.lexemes
        have whole : c :: s = text ++ front ++ d :: rest := by
          rw [List.append_assoc, ← starts.text, List.cons_append, List.take_append_drop]
        have length : text.length = 1 + taken := by
          have more : 0 < (s.drop taken).length := by
            rw [starts.text, List.length_append]
            exact Nat.add_pos_right _ (Nat.succ_pos _)
          rw [List.length_drop] at more
          rw [List.length_cons, List.length_take]
          omega
        have cut : CutsAt (c :: s) text.length := by
          have scanned := cutsAt_scan c s
          rw [read] at scanned
          rwa [length]
        refine ⟨text ++ front, d, rest, whole, ?_, starts.token, ?_, ⟨token, text, here⟩ :: before,
          after, ?_, ?_⟩
        · rw [List.length_append]
          refine cut.add ?_
          rw [length, Nat.add_comm, List.drop_succ_cons]
          exact starts.cut
        · rw [starts.start]
          rw [whole] at cut
          exact (advance_append here cut.of_append).symm
        · rw [first, split]
          rfl
        · rw [List.flatMap_cons, spelled]

/-- A token of a source with its place: `front` is the text before it, and it starts with `c` and
goes on in `rest`.  The line of the place is a line of the source, the token stands in it, and the
column is behind the code units of what stands before it in the line. -/
structure TokenAt (source : Text) (place : Position) (token : Token) (front : Text) (c : Char)
    (rest : Text) : Prop where
  text : source = front ++ c :: rest
  lexeme : ∃ before written after, lexemes source = before ++ ⟨token, written, place⟩ :: after ∧
    before.flatMap Lexeme.text = front
  line : ∃ above left right below, lines source = above ++ (left ++ c :: right) :: below ∧
    lines front = above ++ [left] ∧ place = ⟨above.length + 1, units left + 1⟩

/-- Lexemes that start with no end of a line stand at their places. -/
theorem StartsAt.tokenAt {source front rest : Text} {l : Lexeme} {c : Char}
    (starts : StartsAt {} source l front c rest) (inside : isNewline c = false) :
    TokenAt source l.start l.token front c rest := by
  refine ⟨starts.text, ?_, ?_⟩
  · obtain ⟨before, after, split, spelled⟩ := starts.lexemes
    exact ⟨before, l.text, after, split, spelled⟩
  · obtain ⟨above, left, front_lines, place⟩ := exists_advance {} front
    cases split : lines rest with
    | nil => exact absurd split (lines_ne_nil rest)
    | cons right below =>
        refine ⟨above, left, right, below, ?_, front_lines, ?_⟩
        · have cut := starts.cut
          rw [starts.text] at cut ⊢
          exact lines_append cut front_lines (lines_cons inside split)
        · rw [starts.start, place, Nat.add_comm, ite_self, Nat.add_comm 1]

end Swatch
