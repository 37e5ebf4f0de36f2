import ParseLog.Forest.Arena
import ParseLog.Forest.Growth
/-!
# Arenas hold the nodes of forests

The arena that events build has the nodes of the forest that they stand for, each under its own
number, and it fails where the forest does. A node is new when it is put into a body, so it has no
parent yet, and it is never the root.
-/

namespace ParseLog
set_option autoImplicit false

theorem modify_append_cons {α : Type} (f : α → α) (as : List α) (a : α) (bs : List α) :
    (as ++ a :: bs).modify as.length f = as ++ f a :: bs :=
  List.modifyTailIdx_add (List.modifyHead f) 0 as (a :: bs)

namespace Forest

/-- The nodes of a body as an arena has them, if the first has the number `next`. -/
def cells (parent next : Nat) : Forest → List Cell
  | nil => []
  | leaf e later => ⟨some parent, #[], .leaf e⟩ :: cells parent (next + 1) later
  | region left body right later =>
    ⟨some parent, (body.ids (next + 1)).toArray, .region left right⟩ ::
      (cells next (next + 1) body ++ cells parent (next + 1 + body.size) later)

def allCells (f : Forest) : List Cell := ⟨none, (f.ids 1).toArray, .root⟩ :: f.cells 0 1

theorem map_cell_nodes (f : Forest) (parent : Nat) (siblings : List Nat) (outer : List Frame)
    (next : Nat) : (f.nodes parent siblings outer next).map Node.cell = f.cells parent next := by
  induction f generalizing parent siblings outer next with
  | nil => rfl
  | leaf e later ih => rw [nodes, List.map_cons, ih, cells]; rfl
  | region left body right later ihb ihl =>
    rw [nodes, List.map_cons, List.map_append, ihb, ihl, cells]
    rfl

theorem map_cell_descendants (f : Forest) : f.root.descendants.map Node.cell = f.allCells := by
  rw [Node.descendants, List.map_cons, map_cell_nodes, allCells]
  rfl

theorem length_cells (f : Forest) (parent next : Nat) : (f.cells parent next).length = f.size := by
  induction f generalizing parent next with
  | nil => rfl
  | leaf e later ih => rw [cells, List.length_cons, ih, size]
  | region left body right later ihb ihl =>
    rw [cells, List.length_cons, List.length_append, ihb, ihl, size]

section Reverse
variable (f g : Forest) (parent next : Nat)

theorem size_reverseOnto : (reverseOnto f g).size = g.size + f.size := by
  induction g generalizing f with
  | nil => simp [reverseOnto, size]
  | leaf e later ih =>
    rw [reverseOnto, ih, size, size]
    omega
  | region left body right later _ ih =>
    rw [reverseOnto, ih, size, size]
    omega

theorem size_reverse : g.reverse.size = g.size := size_reverseOnto nil g

theorem ids_reverseOnto :
    (reverseOnto f g).ids next = g.reverse.ids next ++ f.ids (next + g.size) := by
  induction g generalizing f with
  | nil => rfl
  | leaf e later ih =>
    rw [reverse, reverseOnto, reverseOnto, ih (leaf e f), ih (leaf e nil), size]
    simp [ids, Nat.add_assoc]
  | region left body right later _ ih =>
    rw [reverse, reverseOnto, reverseOnto, ih (region left body right f),
      ih (region left body right nil), size]
    simp [ids, Nat.add_comm, Nat.add_left_comm]

theorem cells_reverseOnto :
    (reverseOnto f g).cells parent next =
      g.reverse.cells parent next ++ f.cells parent (next + g.size) := by
  induction g generalizing f with
  | nil => rfl
  | leaf e later ih =>
    rw [reverse, reverseOnto, reverseOnto, ih (leaf e f), ih (leaf e nil), size]
    simp [cells, Nat.add_assoc]
  | region left body right later _ ih =>
    rw [reverse, reverseOnto, reverseOnto, ih (region left body right f),
      ih (region left body right nil), size]
    simp [cells, Nat.add_comm, Nat.add_left_comm]

variable (e : Event) (left : Bracket) (right : Option Bracket)

theorem ids_reverse_leaf : (leaf e g).reverse.ids next = g.reverse.ids next ++ [next + g.size] :=
  ids_reverseOnto (leaf e nil) g next

theorem cells_reverse_leaf : (leaf e g).reverse.cells parent next =
    g.reverse.cells parent next ++ [⟨some parent, #[], .leaf e⟩] :=
  cells_reverseOnto (leaf e nil) g parent next

theorem ids_reverse_region : (region left f right g).reverse.ids next =
    g.reverse.ids next ++ [next + g.size] :=
  ids_reverseOnto (region left f right nil) g next

theorem cells_reverse_region : (region left f right g).reverse.cells parent next =
    g.reverse.cells parent next ++
      ⟨some parent, (f.ids (next + g.size + 1)).toArray, .region left right⟩ ::
        f.cells (next + g.size) (next + g.size + 1) := by
  have h := cells_reverseOnto (region left f right nil) g parent next
  rwa [cells, cells, List.append_nil] at h

end Reverse

end Forest

namespace Growth

/-- The number of the innermost open region, or of the root if all regions are closed. -/
def holder : List OpenRegion → Nat
  | [] => 0
  | o :: outer => holder outer + 1 + o.earlier.size

/-- The numbers of the open regions, the innermost first. -/
def holders : List OpenRegion → List Nat
  | [] => []
  | o :: outer => holder (o :: outer) :: holders outer

/-- The innermost open region, or the root, with the nodes `body` in its body. -/
def holderCell (body : List Nat) : List OpenRegion → Cell
  | [] => ⟨none, body.toArray, .root⟩
  | o :: outer => ⟨some (holder outer), body.toArray, .region o.left none⟩

/-- The nodes that came before the innermost open region, or before the root. -/
def outerCells : List OpenRegion → List Cell
  | [] => []
  | o :: outer =>
    outerCells outer ++
      holderCell (o.earlier.reverse.ids (holder outer + 1) ++ [holder (o :: outer)]) outer ::
        o.earlier.reverse.cells (holder outer) (holder outer + 1)

theorem length_outerCells (opened : List OpenRegion) : (outerCells opened).length = holder opened := by
  induction opened with
  | nil => rfl
  | cons o outer ih =>
    rw [outerCells, List.length_append, List.length_cons, Forest.length_cells, ih,
      Forest.size_reverse, holder]
    omega

def cells (g : Growth) : List Cell :=
  outerCells g.opened ++ holderCell (g.recent.reverse.ids (holder g.opened + 1)) g.opened ::
    g.recent.reverse.cells (holder g.opened) (holder g.opened + 1)

def arena (g : Growth) : Arena := ⟨g.cells.toArray, holders g.opened⟩

theorem allCells_enclose (recent : Forest) (opened : List OpenRegion) :
    (enclose recent opened).allCells = cells ⟨recent, opened⟩ := by
  induction opened generalizing recent with
  | nil => rfl
  | cons o outer ih =>
    rw [enclose, ih, cells, Forest.ids_reverse_region, Forest.cells_reverse_region, cells,
      outerCells, List.append_assoc, List.cons_append]
    rfl

section Step
variable (g : Growth)

theorem length_cells : g.cells.length = holder g.opened + 1 + g.recent.size := by
  rw [cells, List.length_append, List.length_cons, length_outerCells, Forest.length_cells,
    Forest.size_reverse]
  omega

theorem current_arena : g.arena.current = holder g.opened := by
  unfold Arena.current arena
  cases g.opened <;> rfl

theorem modify_holder (f : Cell → Cell) (after : List Cell) :
    (g.cells ++ after).modify (holder g.opened) f =
      outerCells g.opened ++ f (holderCell (g.recent.reverse.ids (holder g.opened + 1)) g.opened) ::
        (g.recent.reverse.cells (holder g.opened) (holder g.opened + 1) ++ after) := by
  rw [cells, List.append_assoc, List.cons_append, ← length_outerCells, modify_append_cons]

theorem addChild_holderCell (body : List Nat) (child : Nat) (opened : List OpenRegion) :
    (holderCell body opened).addChild child = holderCell (body ++ [child]) opened := by
  cases opened <;> simp [holderCell, Cell.addChild]

/-- The nodes when a new one goes to the end of the innermost body. -/
def cellsWith (shape : Shape) : List Cell :=
  outerCells g.opened ++
    holderCell (g.recent.reverse.ids (holder g.opened + 1) ++
        [holder g.opened + 1 + g.recent.size]) g.opened ::
      (g.recent.reverse.cells (holder g.opened) (holder g.opened + 1) ++
        [⟨some (holder g.opened), #[], shape⟩])

theorem push_arena (shape : Shape) :
    g.arena.push shape = .ok ⟨(g.cellsWith shape).toArray, holders g.opened⟩ := by
  have hsize : g.arena.cells.size = g.cells.length := rfl
  have hnew : ¬ g.cells.length = 0 := by
    rw [length_cells]
    omega
  have hcells : g.arena.cells.push (Cell.new shape) = (g.cells ++ [Cell.new shape]).toArray := by
    simp [arena]
  have horphan : (g.cells ++ [Cell.new shape])[g.cells.length]? = some (Cell.new shape) :=
    List.getElem?_concat_length
  have hparent : (g.cells ++ [Cell.new shape]).modify g.cells.length
      (·.setParent (holder g.opened)) = g.cells ++ [⟨some (holder g.opened), #[], shape⟩] :=
    modify_append_cons _ g.cells _ []
  unfold Arena.push Arena.adopt
  rw [current_arena, hsize, if_neg hnew]
  simp only [hcells, List.getElem?_toArray, horphan, List.modify_toArray, hparent, modify_holder,
    addChild_holderCell]
  simp [cellsWith, length_cells, arena, Cell.new]

theorem cells_leaf (e : Event) : cells ⟨.leaf e g.recent, g.opened⟩ = g.cellsWith (.leaf e) := by
  rw [cells, cellsWith, Forest.ids_reverse_leaf, Forest.cells_reverse_leaf]

theorem cells_enter (b : Bracket) : (g.enter b).cells = g.cellsWith (.region b none) := by
  rw [enter, cells, cellsWith, outerCells, List.append_assoc]
  rfl

theorem enter_arena (b : Bracket) : g.arena.enter b = .ok (g.enter b).arena := by
  have hsize : g.arena.cells.size = holder (⟨g.recent, b⟩ :: g.opened) := length_cells g
  rw [Arena.enter, push_arena, ← cells_enter, hsize]
  rfl

theorem cells_leave (b : Bracket) {o : OpenRegion} {outer : List OpenRegion}
    (hopened : g.opened = o :: outer) :
    g.cells.modify (holder g.opened) (fun c => { c with shape := .region o.left (some b) }) =
      cells ⟨.region o.left g.recent.reverse (some b) o.earlier, outer⟩ := by
  have hmodify := modify_holder g (fun c => { c with shape := .region o.left (some b) }) []
  rw [List.append_nil] at hmodify
  rw [hmodify, hopened, cells, Forest.ids_reverse_region, Forest.cells_reverse_region, outerCells,
    List.append_nil, List.append_assoc]
  rfl

theorem leave_arena (b : Bracket) : g.arena.leave b = (g.leave b).map arena := by
  have hholder : g.arena.cells[holder g.opened]? =
      some (holderCell (g.recent.reverse.ids (holder g.opened + 1)) g.opened) := by
    simp [arena, cells, ← length_outerCells]
  unfold Arena.leave leave
  rw [current_arena, hholder]
  cases hopened : g.opened with
  | nil => rfl
  | cons o outer =>
    simp only [holderCell, Option.map_some]
    by_cases hb : o.left.pairsWith b = true
    · rw [if_pos hb, if_pos hb]
      have hcells := cells_leave g b hopened
      rw [hopened] at hcells
      simp only [Except.map, arena, List.modify_toArray, hcells, hopened]
      rfl
    · rw [if_neg hb, if_neg hb]
      rfl

theorem step_arena (e : Event) : g.arena.step e = (g.step e).map arena := by
  have hleaf : ∀ e, g.arena.push (.leaf e) = .ok (arena ⟨.leaf e g.recent, g.opened⟩) := by
    intro e
    rw [push_arena, ← cells_leaf]
    rfl
  cases e with
  | bracket b =>
    cases hside : b.side with
    | left =>
      simp only [Arena.step, step, hside]
      exact enter_arena g b
    | right =>
      simp only [Arena.step, step, hside]
      exact leave_arena g b
  | chunk c => exact hleaf (.chunk c)
  | value a => exact hleaf (.value a)
  | marker m => exact hleaf (.marker m)

end Step

theorem run_arena (g : Growth) (es : List Event) : g.arena.run es = (g.run es).map arena := by
  induction es generalizing g with
  | nil => rfl
  | cons e es ih =>
    rw [Arena.run, List.foldlM_cons, step_arena, run, List.foldlM_cons]
    cases g.step e with
    | error v => rfl
    | ok g' => exact ih g'

end Growth

/-- An arena has the nodes of the forest, each under its own number. -/
theorem Arena.ofEvents_eq (es : List Event) :
    ofEvents es =
      (Forest.ofEvents es).map fun f => (f.root.descendants.map Node.cell).toArray := by
  have hstart : start = Growth.start.arena := rfl
  rw [ofEvents, hstart, Growth.run_arena, Forest.ofEvents]
  cases Growth.start.run es with
  | error v => rfl
  | ok g =>
    simp only [Except.map, Forest.map_cell_descendants]
    rw [Growth.forest, Growth.allCells_enclose]
    rfl

end ParseLog
