/-
Module: Swatch.Proofs.Settled
Purpose: A source whose tokens are printed as they are, and none of which fuses with what follows
  it, is read as a style sheet with every text in its normal spelling.
Main exports:
  cut_piecesAll, Stretch, inherited_stretch, written_of_parse, normalAll_of_separate
-/
import Swatch.Proofs.Acceptance
import Swatch.Proofs.Meaning

namespace Swatch

/-!
### Parts of a run of tokens

The texts of a style sheet are spelled from neighbouring trees somewhere inside the nesting of its
source.  The tokens of such trees follow each other in the source, and they are nested by themselves
as they are there, since they close no block in which they stand.
-/

theorem leftOpen_append (stack : List Bracket) (ts us : List Token) :
    leftOpen stack (ts ++ us) = leftOpen (leftOpen stack ts) us := by
  induction ts generalizing stack with
  | nil => rfl
  | cons t ts ih => exact ih (t.leaves stack)

theorem length_arrange (stack : List Bracket) (ts : List Token) :
    (arrange stack ts).length = ts.length + (leftOpen stack ts).length := by
  induction ts generalizing stack with
  | nil => simp [arrange, leftOpen]
  | cons t ts ih => rw [arrange, List.length_cons, ih, leftOpen, List.length_cons]; omega

/-- Tokens that are arranged as `ps` by themselves as well as inside the innermost block of
`stack`, and close all blocks that they open unless nothing is left behind them. -/
def Encloses (stack : List Bracket) (here later : List Token) (ps : List Piece) : Prop :=
  ∀ outer, outer = [] ∨ outer.head? = stack.head? →
    arrange outer here = ps ++ arrange outer [] ∧ (leftOpen outer here = outer ∨ later = [])

section Cut

variable {stack : List Bracket} {front : List Token} {rest : List Piece}

/-- Behind tokens that leave nothing open others are arranged as without them. -/
theorem arrange_behind {outer : List Bracket} {here : List Token} {ps : List Piece}
    (arranged : arrange outer here = ps ++ arrange outer []) (closed : leftOpen outer here = outer)
    (us : List Token) : arrange outer (here ++ us) = ps ++ arrange outer us := by
  have alone := arrange_append outer here []
  rw [List.append_nil, closed] at alone
  have pieces := List.append_cancel_right (alone.symm.trans arranged)
  rw [arrange_append, closed, pieces]

theorem Encloses.append {here more later : List Token} {ps qs : List Piece}
    (first : Encloses stack here (more ++ later) ps) (second : Encloses stack more later qs) :
    Encloses stack (here ++ more) later (ps ++ qs) := by
  intro outer near
  obtain ⟨arranged, closed⟩ := first outer near
  obtain ⟨behind, complete⟩ := second outer near
  rcases closed with closed | ends
  · rw [arrange_behind arranged closed, behind, List.append_assoc, leftOpen_append, closed]
    exact ⟨rfl, complete⟩
  · obtain ⟨rfl, rfl⟩ := List.append_eq_nil_iff.mp ends
    have none : qs = [] := by simpa using behind
    rw [none, List.append_nil, List.append_nil]
    exact ⟨arranged, .inr rfl⟩

theorem Token.role_eq_inside {t : Token} :
    t.role stack = .inside ↔ t.opens? = none ∧ t.closes stack = false := by
  rw [Token.role]
  cases t.opens? with
  | some bracket => simp
  | none => cases t.closes stack <;> simp

theorem Token.role_eq_opens {t : Token} :
    t.role stack = .opens ↔ ∃ bracket, t.opens? = some bracket := by
  rw [Token.role]
  cases t.opens? with
  | some bracket => simp
  | none => cases t.closes stack <;> simp

/-- A bracket closes a block of its own kind. -/
theorem bracket_of_closes {bracket inner : Bracket}
    (role : (Token.closing bracket).role (inner :: stack) = .closes) : inner = bracket := by
  by_contra other
  have closes : (Token.closing bracket).closes (inner :: stack) = false := by
    simpa [Token.closes] using Ne.symm other
  rw [Token.role_eq_inside.mpr ⟨rfl, closes⟩] at role
  cases role

/-- What opens no block and does not close the innermost one stands inside it. -/
theorem encloses_single {t : Token} (opens : t.opens? = none) (closes : t.closes stack = false)
    (later : List Token) : Encloses stack [t] later [⟨.inside, t⟩] := by
  intro outer near
  have inside : t.closes outer = false := by
    rcases near with rfl | near
    · rfl
    · rw [Token.closes, near]
      exact closes
  have leaves : t.leaves outer = outer := by
    rw [Token.leaves, opens, inside]
    rfl
  have role : t.role outer = .inside := Token.role_eq_inside.mpr ⟨opens, inside⟩
  refine ⟨?_, .inl leaves⟩
  rw [arrange.eq_2, leaves, role, List.singleton_append]

/-- A block whose bracket is there. -/
theorem encloses_block {t : Token} {bracket : Bracket} {here later : List Token} {ps : List Piece}
    (opens : t.opens? = some bracket)
    (inner : Encloses (bracket :: stack) here (.closing bracket :: later) ps) :
    Encloses stack (t :: (here ++ [.closing bracket])) later
      (⟨.opens, t⟩ :: (ps ++ [⟨.closes, .closing bracket⟩])) := by
  intro outer _
  obtain ⟨arranged, closed⟩ := inner (bracket :: outer) (.inr rfl)
  have closed : leftOpen (bracket :: outer) here = bracket :: outer := closed.resolve_right nofun
  have leaves : t.leaves outer = bracket :: outer := by rw [Token.leaves, opens]
  obtain ⟨closes, behind⟩ := leaves_closing bracket outer
  constructor
  · rw [arrange.eq_2, Token.role_eq_opens.mpr ⟨bracket, opens⟩, leaves,
      arrange_behind arranged closed, arrange.eq_2, closes, behind]
    simp
  · rw [leftOpen, leaves, leftOpen_append, closed, leftOpen, behind]
    exact .inl rfl

/-- A block that the end of the text closes. -/
theorem encloses_open {t : Token} {bracket : Bracket} {here : List Token} {ps : List Piece}
    (opens : t.opens? = some bracket) (inner : Encloses (bracket :: stack) here [] ps) :
    Encloses stack (t :: here) [] (⟨.opens, t⟩ :: (ps ++ [⟨.closes, .closing bracket⟩])) := by
  intro outer _
  obtain ⟨arranged, -⟩ := inner (bracket :: outer) (.inr rfl)
  have leaves : t.leaves outer = bracket :: outer := by rw [Token.leaves, opens]
  refine ⟨?_, .inr rfl⟩
  rw [arrange.eq_2, Token.role_eq_opens.mpr ⟨bracket, opens⟩, leaves, arranged]
  simp [arrange]

theorem arrange_eq_cons {p : Piece} (same : arrange stack front = p :: rest) :
    (front = [] ∧ ∃ bracket outer, stack = bracket :: outer ∧ p = ⟨.closes, .closing bracket⟩ ∧
        arrange outer [] = rest) ∨
      ∃ t later, front = t :: later ∧ p = ⟨t.role stack, t⟩ ∧
        arrange (t.leaves stack) later = rest := by
  cases front with
  | nil =>
      cases stack with
      | nil => cases same
      | cons bracket outer =>
          obtain ⟨first, later⟩ := List.cons.inj same
          exact .inl ⟨rfl, bracket, outer, rfl, first.symm, later⟩
  | cons t later =>
      obtain ⟨first, more⟩ := List.cons.inj same
      exact .inr ⟨t, later, rfl, first.symm, more⟩

mutual

theorem cut_pieces {t : Tree} {stack : List Bracket} {front : List Token} {rest : List Piece}
    (same : arrange stack front = t.pieces ++ rest) :
    ∃ here later, front = here ++ later ∧ arrange stack later = rest ∧
      Encloses stack here later t.pieces := by
  cases t with
  | leaf lexeme =>
      rcases arrange_eq_cons same with ⟨-, bracket, outer, -, first, -⟩ |
        ⟨u, later, rfl, first, more⟩
      · cases first
      · obtain ⟨role, rfl⟩ := Piece.mk.inj first
        obtain ⟨opens, closes⟩ := Token.role_eq_inside.mp role.symm
        have leaves : lexeme.token.leaves stack = stack := by
          rw [Token.leaves, opens, closes]
          rfl
        rw [leaves] at more
        exact ⟨[lexeme.token], later, rfl, more, encloses_single opens closes later⟩
  | block bracket opener children stop closed =>
      rw [Tree.pieces, List.cons_append, List.append_assoc] at same
      rcases arrange_eq_cons same with ⟨-, bracket, outer, -, first, -⟩ |
        ⟨u, later, rfl, first, more⟩
      · cases first
      · obtain ⟨role, rfl⟩ := Piece.mk.inj first
        obtain ⟨inner, opens⟩ := Token.role_eq_opens.mp role.symm
        have leaves : opener.token.leaves stack = inner :: stack := by
          rw [Token.leaves, opens]
        rw [leaves] at more
        obtain ⟨here, later, rfl, behind, encloses⟩ := cut_piecesAll more
        rcases arrange_eq_cons behind with ⟨rfl, other, outer, stacked, last, ends⟩ |
          ⟨v, later, rfl, last, ends⟩
        · obtain ⟨rfl, rfl⟩ := List.cons.inj stacked
          obtain ⟨-, same⟩ := Piece.mk.inj last
          obtain rfl := Token.closing.inj same
          exact ⟨opener.token :: here, [], by simp, ends, encloses_open opens encloses⟩
        · obtain ⟨closes, rfl⟩ := Piece.mk.inj last
          obtain rfl := bracket_of_closes closes.symm
          rw [(leaves_closing inner stack).2] at ends
          exact ⟨opener.token :: (here ++ [.closing inner]), later, by simp, ends,
            encloses_block opens encloses⟩

/-- Tokens whose pieces begin with those of trees begin with tokens that are nested as these trees
are. -/
theorem cut_piecesAll {ts : List Tree} {stack : List Bracket} {front : List Token}
    {rest : List Piece} (same : arrange stack front = piecesAll ts ++ rest) :
    ∃ here later, front = here ++ later ∧ arrange stack later = rest ∧
      Encloses stack here later (piecesAll ts) := by
  cases ts with
  | nil =>
      refine ⟨[], front, rfl, same, fun outer _ => ⟨rfl, .inl rfl⟩⟩
  | cons t ts =>
      rw [piecesAll, List.append_assoc] at same
      obtain ⟨here, later, rfl, behind, first⟩ := cut_pieces same
      obtain ⟨more, later, rfl, ends, second⟩ := cut_piecesAll behind
      exact ⟨here ++ more, later, (List.append_assoc _ _ _).symm, ends, first.append second⟩

end

end Cut

/-!
### Trees that follow each other in a source
-/

/-- The tokens of trees follow each other among `all`, and what they leave open is closed by the end
of the text. -/
def Stretch (all : List Token) (ts : List Tree) : Prop :=
  ∃ front behind, front ++ behind <:+ all ∧ arrange [] front = piecesAll ts ∧
    (leftOpen [] front = [] ∨ behind = [])

theorem Inherited.and {P Q : List Tree → Prop} (first : Inherited P) (second : Inherited Q) :
    Inherited fun ts => P ts ∧ Q ts where
  left xs ys holds := ⟨first.left xs ys holds.1, second.left xs ys holds.2⟩
  right xs ys holds := ⟨first.right xs ys holds.1, second.right xs ys holds.2⟩
  inside _ _ _ _ _ holds := ⟨first.inside _ _ _ _ _ holds.1, second.inside _ _ _ _ _ holds.2⟩

theorem inherited_stretch (all : List Token) : Inherited (Stretch all) where
  left xs ys := by
    rintro ⟨front, behind, inner, arranged, complete⟩
    rw [piecesAll_append] at arranged
    obtain ⟨here, later, rfl, -, encloses⟩ := cut_piecesAll arranged
    obtain ⟨same, closed⟩ := encloses [] (.inl rfl)
    rw [arrange, List.map_nil, List.append_nil] at same
    refine ⟨here, later ++ behind, by rwa [← List.append_assoc], same, ?_⟩
    rcases closed with closed | rfl
    · exact .inl closed
    · rw [List.append_nil] at complete
      exact complete
  right xs ys := by
    rintro ⟨front, behind, inner, arranged, complete⟩
    rw [piecesAll_append] at arranged
    obtain ⟨here, later, rfl, same, encloses⟩ := cut_piecesAll arranged
    obtain ⟨-, closed⟩ := encloses [] (.inl rfl)
    refine ⟨later, behind, ?_, same, ?_⟩
    · rw [List.append_assoc] at inner
      exact (List.suffix_append here _).trans inner
    · rw [leftOpen_append] at complete
      rcases closed with closed | rfl
      · rw [closed] at complete
        exact complete
      · exact .inl rfl
  inside bracket opener children stop closed := by
    rintro ⟨front, behind, inner, arranged, complete⟩
    rw [piecesAll, piecesAll, List.append_nil, Tree.pieces] at arranged
    rcases arrange_eq_cons arranged with ⟨-, _, _, none, -⟩ | ⟨t, later, rfl, first, more⟩
    · cases none
    · obtain ⟨bracket, opens⟩ := Token.role_eq_opens.mp (Piece.mk.inj first).1.symm
      have leaves : t.leaves [] = [bracket] := by rw [Token.leaves, opens]
      rw [leaves] at more
      obtain ⟨here, later, rfl, -, encloses⟩ := cut_piecesAll more
      obtain ⟨same, closed⟩ := encloses [] (.inl rfl)
      rw [arrange, List.map_nil, List.append_nil] at same
      refine ⟨here, later ++ behind, ?_, same, ?_⟩
      · rw [List.cons_append, List.append_assoc] at inner
        exact (List.suffix_cons t _).trans inner
      · rcases closed with closed | rfl
        · exact .inl closed
        · refine complete.imp (fun closed => ?_) id
          -- the bracket of the block is not among the tokens, so it is still open
          have open_ := (encloses [bracket] (.inr rfl)).1
          have length := congrArg List.length open_
          rw [List.append_nil, leftOpen, leaves] at closed
          rw [← same, List.length_append, length_arrange, length_arrange, closed] at length
          simp [arrange] at length
          omega

theorem stretch_trees (s : Text) : Stretch (tokens s) (trees s) :=
  ⟨tokens s, [], by simp, (piecesAll_trees s).symm, .inr rfl⟩

/-- The tokens from any place on are those of what is left of the text there. -/
theorem exists_tokens_of_suffix {s : Text} {ts : List Token} (inner : ts <:+ tokens s) :
    ∃ rest, tokens rest = ts := by
  induction s using scan_induction with
  | nil =>
      rw [tokens_nil] at inner
      exact ⟨[], by rw [tokens_nil, List.suffix_nil.mp inner]⟩
  | cons c s ih =>
      rw [tokens_cons, List.suffix_cons_iff] at inner
      rcases inner with rfl | inner
      · exact ⟨c :: s, tokens_cons c s⟩
      · exact ih inner

/-- What is separate is so from any place on. -/
theorem separate_of_suffix {ts all : List Token} (inner : ts <:+ all)
    (apart : separate all = true) : separate ts = true := by
  induction all with
  | nil => rwa [List.suffix_nil.mp inner]
  | cons t all ih =>
      rcases List.suffix_cons_iff.mp inner with rfl | inner
      · exact apart
      · rw [separate, Bool.and_eq_true] at apart
        exact ih inner apart.2

/-- Trees of a source without fusing tokens are written in their normal spelling. -/
theorem Stretch.normal {commas : Bool} {all : Text} {ts : List Tree} {w : Text}
    (stretch : Stretch (tokens all) ts) (apart : separate (tokens all) = true)
    (holds : HoldsAll (fun _ => True) ts) (written : writeValue commas ts = .ok w) :
    normalizeValue commas w = .ok w := by
  obtain ⟨front, behind, inner, arranged, complete⟩ := stretch
  obtain ⟨s, read⟩ := exists_tokens_of_suffix inner
  obtain ⟨whole, rfl⟩ := writeValue_spell holds written
  rw [← arranged] at whole ⊢
  have here : separate (tokens s) = true := by
    rw [read]
    exact separate_of_suffix inner apart
  exact normalizeValue_portion here ((whole_arrange_iff [] front).mp whole)
    ⟨behind, read, complete⟩

/-!
### Texts of a style sheet
-/

section Texts

variable {P : List Tree → Prop} {commas : Bool}

theorem allTexts_withoutComments {P : Text → Prop} {nodes : List Node} :
    AllTexts P (withoutComments nodes) ↔ AllTexts P nodes := by
  have same : textsAll (withoutComments nodes) = textsAll nodes := by
    rw [textsAll, textsAll, headsAll_withoutComments, List.filterMap_filter]
    congr 1
    funext n
    cases n <;> rfl
  rw [AllTexts, AllTexts, same]

/-- The trees that a text is written from are of a kind. -/
def WrittenFrom (P : List Tree → Prop) (commas : Bool) (w : Text) : Prop :=
  ∃ ts, P ts ∧ writeValue commas ts = .ok w

mutual

theorem ItemReads.texts (inherited : Inherited P) {kind : ItemList} {item : Item} {n : Node}
    (read : ItemReads commas kind item n) (front : P item.front)
    (block : ∀ children ∈ item.block, P children) : AllTexts (WrittenFrom P commas) [n] := by
  cases read with
  | @atStatement _ keyword _ _ params named spelled =>
      exact allTexts_atStatement.mpr ⟨params, inherited.right [keyword] params front, spelled⟩
  | @atBlock _ keyword _ _ params children _ named spelled inside =>
      exact allTexts_atBlock.mpr ⟨⟨params, inherited.right [keyword] params front, spelled⟩,
        inside.texts inherited fun item member =>
          inherited.items (block children rfl) item member⟩
  | rule list plain spelled inside =>
      exact allTexts_rule.mpr ⟨⟨_, front, spelled⟩,
        inside.texts inherited fun item member => inherited.items (block _ rfl) item member⟩
  | @declaration property colon _ _ blanks value tail named blank separates calm spelled =>
      have behind := inherited.right blanks _ (inherited.right [property] _ front)
      have later := inherited.right [colon] _ behind
      exact allTexts_declaration.mpr ⟨value, inherited.left value tail later, spelled⟩

theorem ItemsRead.texts (inherited : Inherited P) {kind : ItemList} {all : List Item}
    {nodes : List Node} (read : ItemsRead commas kind all nodes)
    (holds : ∀ item ∈ all, P item.front ∧ ∀ children ∈ item.block, P children) :
    AllTexts (WrittenFrom P commas) nodes := by
  cases read with
  | nil => exact allTexts_nil
  | cons first more =>
      obtain ⟨here, later⟩ := List.forall_mem_cons.mp holds
      exact allTexts_cons.mpr ⟨first.texts inherited here.1 here.2, more.texts inherited later⟩

end

/-- All texts of a style sheet are written from trees that follow each other in its source. -/
theorem written_of_parse (inherited : Inherited P) {source : Text} {nodes : List Node}
    (holds : P (trees (dropMark source))) (read : parse commas source = .ok nodes) :
    AllTexts (WrittenFrom P commas) nodes := by
  have items := parse_iff_itemsRead.mp (congrArg (fun r => r.toOption.map withoutComments) read)
  exact allTexts_withoutComments.mp (items.texts inherited (inherited.items holds))

end Texts

/-- If no token of a source is changed by being printed, and none fuses with what follows it, all
texts of its sheet are in their normal spelling. -/
theorem normalAll_of_separate {commas : Bool} {source : Text} {nodes : List Node}
    (read : parse commas source = .ok nodes) (apart : separate (tokens (dropMark source)) = true) :
    NormalAll commas nodes := by
  have texts := written_of_parse
    ((inherited_stretch (tokens (dropMark source))).and inherited_holds)
    ⟨stretch_trees _, holdsAll_trees fun _ _ => trivial⟩ read
  intro w member
  obtain ⟨ts, ⟨stretch, holds⟩, written⟩ := texts w member
  exact toOption_eq_some.mpr (stretch.normal apart holds written)

end Swatch
