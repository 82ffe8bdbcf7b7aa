/-
Module: Swatch.Proofs.Visits
Purpose: The walks over the declarations of a style sheet: each declaration is met once, in the
  order of the places where the declarations stand.
Main exports:
  Node.at?, itemAt, placed, mem_placed, Node.visit, visitAll, visitAll_eq, Node.edit, editAll,
  split_editAll, editAll_pure, VisitedInOrder, visitedInOrder
-/
import Swatch.Proofs.Outline
import Swatch.Proofs.Rows

namespace Swatch

/-!
### Places

A place leads from the sheet into its items: the number of an item of the sheet, the number of an
item inside that one, and so on.  Places are compared number by number, and an item comes before
what is inside it, so this is the order of the document.
-/

/-- The items inside an item. -/
def Node.children : Node → List Node
  | .rule _ children => children
  | .atBlock _ _ children => children
  | _ => []

/-- The item at a place inside an item. -/
def Node.at? : (place : List Nat) → Node → Option Node
  | [], n => some n
  | i :: place, n => n.children[i]?.bind (Node.at? place)

/-- The item at a place of a sheet. -/
def itemAt (nodes : List Node) : (place : List Nat) → Option Node
  | [] => none
  | i :: place => nodes[i]?.bind (Node.at? place)

mutual

/-- The declarations in an item with their places in it, in document order. -/
def Node.placed : Node → List (List Nat × Declaration)
  | .rule _ children => placedFrom 0 children
  | .atBlock _ _ children => placedFrom 0 children
  | .atStatement _ _ => []
  | .declaration d => [([], d)]
  | .comment _ => []

/-- The declarations in the items of a list with their places, where the first item has the number
`i`. -/
def placedFrom (i : Nat) : List Node → List (List Nat × Declaration)
  | [] => []
  | n :: rest => n.placed.map (Prod.map (i :: ·) id) ++ placedFrom (i + 1) rest

end

/-- The declarations of a sheet with their places. -/
def placed (nodes : List Node) : List (List Nat × Declaration) := placedFrom 0 nodes

mutual

theorem map_snd_placed_item (n : Node) : n.placed.map Prod.snd = n.declarations := by
  cases n with
  | rule selector children => exact map_snd_placedFrom 0 children
  | atBlock name params children => exact map_snd_placedFrom 0 children
  | atStatement name params => rfl
  | declaration d => rfl
  | comment text => rfl

/-- The walk meets the declarations that have a place, in the order of their places. -/
theorem map_snd_placedFrom (i : Nat) (nodes : List Node) :
    (placedFrom i nodes).map Prod.snd = Node.declarationsAll nodes := by
  cases nodes with
  | nil => rfl
  | cons n rest =>
      have first : Prod.snd ∘ Prod.map (i :: ·) (id : Declaration → Declaration) = Prod.snd := rfl
      rw [placedFrom, List.map_append, List.map_map, first, map_snd_placed_item n,
        map_snd_placedFrom (i + 1) rest, Node.declarationsAll]

end

theorem mem_map_place {i : Nat} {place : List Nat} {d : Declaration}
    {inside : List (List Nat × Declaration)} :
    (place, d) ∈ inside.map (Prod.map (i :: ·) id) ↔
      ∃ inner, place = i :: inner ∧ (inner, d) ∈ inside := by
  rw [List.mem_map]
  constructor
  · rintro ⟨⟨inner, e⟩, member, same⟩
    cases same
    exact ⟨inner, rfl, member⟩
  · rintro ⟨inner, rfl, member⟩
    exact ⟨(inner, d), member, rfl⟩

/-- Among the items of an item, those that are inside it have their places. -/
theorem at?_block_iff {n : Node} {place : List Nat} {d : Declaration}
    (block : n ≠ .declaration d) :
    n.at? place = some (.declaration d) ↔
      ∃ j inner item, place = (0 + j) :: inner ∧ n.children[j]? = some item ∧
        item.at? inner = some (.declaration d) := by
  cases place with
  | nil => exact iff_of_false (fun same => block (Option.some.inj same)) (by simp)
  | cons i place =>
      rw [Node.at?, Option.bind_eq_some_iff]
      constructor
      · rintro ⟨item, found, inside⟩
        exact ⟨i, place, item, by rw [Nat.zero_add], found, inside⟩
      · rintro ⟨j, inner, item, same, found, inside⟩
        rw [Nat.zero_add] at same
        cases same
        exact ⟨item, found, inside⟩

mutual

theorem mem_placed_item {n : Node} {place : List Nat} {d : Declaration} :
    (place, d) ∈ n.placed ↔ n.at? place = some (.declaration d) := by
  cases n with
  | rule selector children =>
      exact mem_placedFrom.trans (at?_block_iff (n := .rule selector children) nofun).symm
  | atBlock name params children =>
      exact mem_placedFrom.trans (at?_block_iff (n := .atBlock name params children) nofun).symm
  | atStatement name params =>
      refine iff_of_false List.not_mem_nil ?_
      cases place <;> nofun
  | declaration e =>
      cases place with
      | nil => simp [Node.placed, Node.at?, eq_comm]
      | cons i place => simp [Node.placed, Node.at?, Node.children]
  | comment text =>
      refine iff_of_false List.not_mem_nil ?_
      cases place <;> nofun

/-- The places are those at which declarations stand. -/
theorem mem_placedFrom {i : Nat} {nodes : List Node} {place : List Nat} {d : Declaration} :
    (place, d) ∈ placedFrom i nodes ↔
      ∃ j inner item, place = (i + j) :: inner ∧ nodes[j]? = some item ∧
        item.at? inner = some (.declaration d) := by
  cases nodes with
  | nil => simp [placedFrom]
  | cons n rest =>
      rw [placedFrom, List.mem_append, mem_map_place]
      constructor
      · rintro (⟨inner, rfl, member⟩ | member)
        · exact ⟨0, inner, n, rfl, rfl, mem_placed_item.mp member⟩
        · obtain ⟨j, inner, item, rfl, found, inside⟩ := mem_placedFrom.mp member
          exact ⟨j + 1, inner, item, by rw [Nat.add_right_comm, Nat.add_assoc], found, inside⟩
      · rintro ⟨j, inner, item, rfl, found, inside⟩
        cases j with
        | zero =>
            cases found
            exact .inl ⟨inner, rfl, mem_placed_item.mpr inside⟩
        | succ j =>
            refine .inr (mem_placedFrom.mpr ⟨j, inner, item, ?_, found, inside⟩)
            rw [Nat.add_right_comm, Nat.add_assoc]

end

mutual

theorem sorted_placed_item (n : Node) : (n.placed.map Prod.fst).Pairwise (· < ·) := by
  cases n with
  | rule selector children => exact sorted_placedFrom 0 children
  | atBlock name params children => exact sorted_placedFrom 0 children
  | atStatement name params => exact .nil
  | declaration d => exact List.pairwise_singleton _ _
  | comment text => exact .nil

/-- The declarations come in the order of their places. -/
theorem sorted_placedFrom (i : Nat) (nodes : List Node) :
    ((placedFrom i nodes).map Prod.fst).Pairwise (· < ·) := by
  cases nodes with
  | nil => exact .nil
  | cons n rest =>
      have inside : (n.placed.map (Prod.map (i :: ·) id)).map Prod.fst =
          (n.placed.map Prod.fst).map (i :: ·) := by
        rw [List.map_map, List.map_map]
        rfl
      rw [placedFrom, List.map_append, inside, List.pairwise_append]
      refine ⟨List.pairwise_map.mpr ?_, sorted_placedFrom (i + 1) rest, ?_⟩
      · refine (sorted_placed_item n).imp fun before => ?_
        exact List.cons_lt_cons_iff.mpr (.inr ⟨rfl, before⟩)
      · intro first front second back
        obtain ⟨inner, -, rfl⟩ := List.mem_map.mp front
        obtain ⟨⟨place, d⟩, member, rfl⟩ := List.mem_map.mp back
        obtain ⟨j, later, item, rfl, -⟩ := mem_placedFrom.mp member
        exact List.cons_lt_cons_iff.mpr (.inl (by omega))

end

/-- The declarations with a place are those that stand in the sheet. -/
theorem mem_placed {nodes : List Node} {place : List Nat} {d : Declaration} :
    (place, d) ∈ placed nodes ↔ itemAt nodes place = some (.declaration d) := by
  have inside : (place, d) ∈ placed nodes ↔
      (Node.rule [] nodes).at? place = some (.declaration d) :=
    mem_placedFrom.trans (at?_block_iff (n := .rule [] nodes) nofun).symm
  cases place with
  | nil => exact inside.trans (iff_of_false nofun nofun)
  | cons i place => exact inside

/-!
### Walks

A walk acts on each declaration that it meets and may keep something in mind from one to the next,
such as a count.  The first kind only looks at the declarations, the second one changes them.
-/

section Walks

variable {m : Type → Type} [Monad m]

mutual

/-- Acts on every declaration of an item. -/
def Node.visit (act : Declaration → m Unit) : Node → m Unit
  | .rule _ children => visitAll act children
  | .atBlock _ _ children => visitAll act children
  | .atStatement _ _ => pure ()
  | .declaration d => act d
  | .comment _ => pure ()

/-- Acts on every declaration of a list of items. -/
def visitAll (act : Declaration → m Unit) : List Node → m Unit
  | [] => pure ()
  | n :: rest => do
    n.visit act
    visitAll act rest

end

mutual

/-- Changes every declaration of an item. -/
def Node.edit (change : Declaration → m Declaration) : Node → m Node
  | .rule selector children => do
    let children ← editAll change children
    return .rule selector children
  | .atBlock name params children => do
    let children ← editAll change children
    return .atBlock name params children
  | .atStatement name params => return .atStatement name params
  | .declaration d => do
    let d ← change d
    return .declaration d
  | .comment text => return .comment text

/-- Changes every declaration of a list of items. -/
def editAll (change : Declaration → m Declaration) : List Node → m (List Node)
  | [] => return []
  | n :: rest => do
    let n ← n.edit change
    let rest ← editAll change rest
    return n :: rest

end

variable [LawfulMonad m]

mutual

theorem visit_eq (act : Declaration → m Unit) (n : Node) :
    n.visit act = forM n.declarations act := by
  cases n with
  | rule selector children => exact visitAll_eq act children
  | atBlock name params children => exact visitAll_eq act children
  | atStatement name params => rfl
  | declaration d => simp [Node.visit, Node.declarations]
  | comment text => rfl

/-- A walk that looks at the declarations acts on each of them in document order. -/
theorem visitAll_eq (act : Declaration → m Unit) (nodes : List Node) :
    visitAll act nodes = forM (Node.declarationsAll nodes) act := by
  cases nodes with
  | nil => rfl
  | cons n rest =>
      rw [visitAll, visit_eq act n, visitAll_eq act rest, Node.declarationsAll, List.forM_append]

end

/-- The declarations of an item, and what it is besides them. -/
def Node.split (n : Node) : List Declaration × Node :=
  (n.declarations, n.mapDeclarations Declaration.blank)

/-- The declarations of a sheet, and what it is besides them. -/
def splitAll (nodes : List Node) : List Declaration × List Node :=
  (Node.declarationsAll nodes, Node.mapDeclarationsAll Declaration.blank nodes)

theorem split_edit_block {change : Declaration → m Declaration} {block : List Node → Node}
    (apart : ∀ nodes, (block nodes).split = Prod.map id block (splitAll nodes))
    {children : List Node}
    (inside : splitAll <$> editAll change children =
      (·, Node.mapDeclarationsAll Declaration.blank children) <$>
        (Node.declarationsAll children).mapM change) :
    Node.split <$> (do return block (← editAll change children)) =
      (·, block (Node.mapDeclarationsAll Declaration.blank children)) <$>
        (Node.declarationsAll children).mapM change := by
  simp only [map_bind, map_pure, apart]
  rw [← map_eq_pure_bind, ← Functor.map_map, inside, Functor.map_map]
  rfl

mutual

theorem split_edit (change : Declaration → m Declaration) (n : Node) :
    Node.split <$> n.edit change =
      (·, n.mapDeclarations Declaration.blank) <$> n.declarations.mapM change := by
  cases n with
  | rule selector children =>
      exact split_edit_block (fun _ => rfl) (split_editAll change children)
  | atBlock name params children =>
      exact split_edit_block (fun _ => rfl) (split_editAll change children)
  | atStatement name params =>
      simp [Node.edit, Node.split, Node.declarations, Node.mapDeclarations]
  | declaration d =>
      simp [Node.edit, Node.split, Node.declarations, Node.mapDeclarations, Declaration.blank]
  | comment text => simp [Node.edit, Node.split, Node.declarations, Node.mapDeclarations]

/-- A walk that changes the declarations changes each of them in document order, and nothing else of
the sheet. -/
theorem split_editAll (change : Declaration → m Declaration) (nodes : List Node) :
    splitAll <$> editAll change nodes =
      (·, Node.mapDeclarationsAll Declaration.blank nodes) <$>
        (Node.declarationsAll nodes).mapM change := by
  cases nodes with
  | nil => simp [editAll, splitAll, Node.declarationsAll, Node.mapDeclarationsAll]
  | cons n rest =>
      have first := split_edit change n
      have others := split_editAll change rest
      calc splitAll <$> editAll change (n :: rest)
          = (do
              let head ← Node.split <$> n.edit change
              let tail ← splitAll <$> editAll change rest
              return (head.1 ++ tail.1, head.2 :: tail.2)) := by
            simp only [editAll, map_bind, map_pure, bind_map_left]
            rfl
        _ = (·, Node.mapDeclarationsAll Declaration.blank (n :: rest)) <$>
              (Node.declarationsAll (n :: rest)).mapM change := by
            rw [first, others]
            simp [Node.declarationsAll, Node.mapDeclarationsAll, List.mapM_append]

end

mutual

theorem edit_pure (f : Declaration → Declaration) (n : Node) :
    (n.edit fun d => (pure (f d) : m Declaration)) = pure (n.mapDeclarations f) := by
  cases n with
  | rule selector children => simp [Node.edit, editAll_pure f children, Node.mapDeclarations]
  | atBlock name params children => simp [Node.edit, editAll_pure f children, Node.mapDeclarations]
  | atStatement name params => rfl
  | declaration d => simp [Node.edit, Node.mapDeclarations]
  | comment text => rfl

/-- A walk that keeps nothing in mind changes each declaration by itself. -/
theorem editAll_pure (f : Declaration → Declaration) (nodes : List Node) :
    (editAll (fun d => (pure (f d) : m Declaration)) nodes) =
      pure (Node.mapDeclarationsAll f nodes) := by
  cases nodes with
  | nil => rfl
  | cons n rest => simp [editAll, edit_pure f n, editAll_pure f rest, Node.mapDeclarationsAll]

end

end Walks

/-!
### The order of the walks
-/

/-- The walks over a sheet meet each of its declarations once, in document order. -/
structure VisitedInOrder (nodes : List Node) : Prop where
  /-- Each declaration of the sheet has a place, and the walk meets those at all places by the order
  of the places. -/
  once : ∃ met : List (List Nat × Declaration),
    (∀ place d, (place, d) ∈ met ↔ itemAt nodes place = some (.declaration d)) ∧
      (met.map Prod.fst).Pairwise (· < ·) ∧ met.map Prod.snd = Node.declarationsAll nodes
  /-- The sheet is printed row by row, with a row for each declaration that the walk meets. -/
  printed : ∀ s, print s nodes = (rows s nodes).flatMap (Row.text s) ∧
    (rows s nodes).filterMap Row.declaration? = Node.declarationsAll nodes
  /-- A walk that looks at the declarations acts on these, one after the other. -/
  visits : ∀ {σ : Type} (act : Declaration → StateM σ Unit),
    visitAll act nodes = forM (Node.declarationsAll nodes) act
  /-- A walk that changes the declarations changes these, one after the other, and nothing else. -/
  edits : ∀ {σ : Type} (change : Declaration → StateM σ Declaration) (st : σ),
    ((Node.declarationsAll nodes).mapM change).run st =
        (Node.declarationsAll ((editAll change nodes).run st).1,
          ((editAll change nodes).run st).2) ∧
      Node.mapDeclarationsAll Declaration.blank ((editAll change nodes).run st).1 =
        Node.mapDeclarationsAll Declaration.blank nodes
  /-- If it keeps nothing in mind, it changes each declaration by itself. -/
  maps : ∀ {σ : Type} (f : Declaration → Declaration),
    editAll (fun d => (pure (f d) : StateM σ Declaration)) nodes =
      pure (Node.mapDeclarationsAll f nodes)

theorem visitedInOrder (nodes : List Node) : VisitedInOrder nodes where
  once := ⟨placed nodes, fun _ _ => mem_placed, sorted_placedFrom 0 nodes,
    map_snd_placedFrom 0 nodes⟩
  printed s := ⟨print_eq_rows s nodes, declarations_rows s nodes⟩
  visits act := visitAll_eq act nodes
  edits change st := by
    have walked : (splitAll ((editAll change nodes).run st).1, ((editAll change nodes).run st).2) =
        (((((Node.declarationsAll nodes).mapM change).run st).1,
            Node.mapDeclarationsAll Declaration.blank nodes),
          (((Node.declarationsAll nodes).mapM change).run st).2) :=
      congrArg (fun walk => walk.run st) (split_editAll change nodes)
    rw [splitAll, Prod.mk.injEq, Prod.mk.injEq] at walked
    obtain ⟨⟨declarations, others⟩, last⟩ := walked
    exact ⟨Prod.ext declarations.symm last.symm, others⟩
  maps f := editAll_pure f nodes

end Swatch
