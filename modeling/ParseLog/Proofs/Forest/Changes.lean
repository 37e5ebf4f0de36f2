import Mathlib.Data.List.Induction
import ParseLog.Forest.Navigation
/-!
# What a step changes in an arena

A step adds a node at the end of the current body, or it closes the current region. Of all other
nodes the arena knows afterwards what it knew before.
-/

namespace ParseLog
set_option autoImplicit false

namespace Arena

section Cells
variable {cells : Array Cell} {f : Cell → Cell} {place : Nat}

theorem isOpen_eq_true_iff {id : Nat} :
    isOpen cells id = true ↔ ∃ left, shape? cells id = some (.region left none) := by
  rw [isOpen, Option.any_eq_true]
  constructor
  · rintro ⟨shape, hshape, hopen⟩
    unfold Shape.isOpen at hopen
    split at hopen
    · exact ⟨_, hshape⟩
    · cases hopen
  · rintro ⟨left, hshape⟩
    exact ⟨_, hshape, rfl⟩

theorem shape?_modify (hf : ∀ c, (f c).shape = c.shape) (id : Nat) :
    shape? (cells.modify place f) id = shape? cells id := by
  rw [shape?, shape?, Array.getElem?_modify]
  split
  · rw [Option.map_map, Function.comp_def, funext hf]
  · rfl

theorem parent?_modify (hf : ∀ c, (f c).parent = c.parent) (id : Nat) :
    parent? (cells.modify place f) id = parent? cells id := by
  rw [parent?, parent?, Array.getElem?_modify]
  split
  · rw [Option.bind_map, Function.comp_def, funext hf]
  · rfl

theorem children_modify (hf : ∀ c, (f c).body = c.body) (id : Nat) :
    children (cells.modify place f) id = children cells id := by
  rw [children, children, Array.getElem?_modify]
  split
  · rw [Option.map_map, Function.comp_def]
    simp only [hf]
  · rfl

theorem parent?_modify_setParent (h : place < cells.size) (parent id : Nat) :
    parent? (cells.modify place (·.setParent parent)) id =
      if id = place then some parent else parent? cells id := by
  rw [parent?, Array.getElem?_modify]
  by_cases hid : id = place
  · rw [if_pos hid.symm, if_pos hid, hid, Array.getElem?_eq_getElem h]
    rfl
  · rw [if_neg (Ne.symm hid), if_neg hid, parent?]

theorem children_modify_addChild (h : place < cells.size) (child id : Nat) :
    children (cells.modify place (·.addChild child)) id =
      if id = place then children cells id ++ [child] else children cells id := by
  rw [children, children, Array.getElem?_modify]
  by_cases hid : id = place
  · rw [if_pos hid.symm, if_pos hid, hid, Array.getElem?_eq_getElem h]
    exact Array.toList_push
  · rw [if_neg (Ne.symm hid), if_neg hid]

theorem shape?_push (shape : Shape) (id : Nat) : shape? (cells.push (.new shape)) id =
    if id = cells.size then some shape else shape? cells id := by
  rw [shape?, Array.getElem?_push]
  split <;> rfl

theorem parent?_push (shape : Shape) (id : Nat) :
    parent? (cells.push (.new shape)) id = if id = cells.size then none else parent? cells id := by
  rw [parent?, Array.getElem?_push]
  split <;> rfl

theorem children_push (shape : Shape) (id : Nat) :
    children (cells.push (.new shape)) id = children cells id := by
  rw [children, Array.getElem?_push]
  by_cases hid : id = cells.size
  · rw [if_pos hid, hid, children, Array.getElem?_eq_none (Nat.le_refl _)]
    rfl
  · rw [if_neg hid, children]

end Cells

/-- Whether `cells` are those of the arena with one more node, at the end of the current body. -/
structure Grows (t : Arena) (shape : Shape) (cells : Array Cell) : Prop where
  size_eq : cells.size = t.cells.size + 1
  shape?_eq : ∀ id, shape? cells id = if id = t.cells.size then some shape else shape? t.cells id
  parent?_eq : ∀ id,
    parent? cells id = if id = t.cells.size then some t.current else parent? t.cells id
  children_eq : ∀ id, children cells id =
    if id = t.current then children t.cells id ++ [t.cells.size] else children t.cells id

/-- Whether `cells` are those of the arena with the current region closed, from `left` to `b`. -/
structure Closes (t : Arena) (left b : Bracket) (cells : Array Cell) : Prop where
  size_eq : cells.size = t.cells.size
  shape?_eq : ∀ id, id ≠ t.current → shape? cells id = shape? t.cells id
  shape?_current : shape? cells t.current = some (.region left (some b))
  parent?_eq : ∀ id, parent? cells id = parent? t.cells id
  children_eq : ∀ id, children cells id = children t.cells id

/-- What a step makes of an arena, for each kind of event. -/
inductive Moves (t : Arena) : Event → Arena → Prop where
  | leaf {e : Event} {cells : Array Cell} (event : e.isBracket = false)
      (grows : t.Grows (.leaf e) cells) : Moves t e ⟨cells, t.opened⟩
  | enter {b : Bracket} {cells : Array Cell} (side : b.side = .left)
      (grows : t.Grows (.region b none) cells) :
      Moves t (.bracket b) ⟨cells, t.cells.size :: t.opened⟩
  | leave {b left : Bracket} {right : Option Bracket} {cells : Array Cell} (side : b.side = .right)
      (region : shape? t.cells t.current = some (.region left right))
      (closes : t.Closes left b cells) : Moves t (.bracket b) ⟨cells, t.opened.tail⟩

section Step
variable {t t' : Arena}

theorem grows_of_push {shape : Shape} (hcurrent : t.current < t.cells.size)
    (h : t.push shape = .ok t') : ∃ cells, t' = ⟨cells, t.opened⟩ ∧ t.Grows shape cells := by
  unfold push adopt at h
  split at h
  · cases h
  split at h
  · cases h
  cases h
  have hnew : t.cells.size < (t.cells.push (.new shape)).size := by simp
  have hparent : t.current < ((t.cells.push (.new shape)).modify t.cells.size
      (·.setParent t.current)).size := by
    simpa using Nat.lt_succ_of_lt hcurrent
  refine ⟨_, rfl, ?_, fun id => ?_, fun id => ?_, fun id => ?_⟩
  · simp
  · rw [shape?_modify, shape?_modify, shape?_push] <;> exact fun _ => rfl
  · rw [parent?_modify fun _ => ?_, parent?_modify_setParent hnew, parent?_push]
    · split <;> rfl
    · rfl
  · rw [children_modify_addChild hparent, children_modify fun _ => ?_, children_push]
    rfl

theorem closes_of_leave {b : Bracket} (h : t.leave b = .ok t') :
    ∃ left right cells, shape? t.cells t.current = some (.region left right) ∧
      t' = ⟨cells, t.opened.tail⟩ ∧ t.Closes left b cells := by
  unfold leave at h
  split at h
  · rename_i left right hregion
    split at h
    · cases h
      refine ⟨left, right, _, hregion, rfl, ?_, fun id hid => ?_, ?_, parent?_modify fun _ => rfl,
        children_modify fun _ => rfl⟩
      · exact Array.size_modify
      · rw [shape?, Array.getElem?_modify, if_neg hid.symm, shape?]
      · obtain ⟨c, hc, -⟩ := Option.map_eq_some_iff.mp hregion
        rw [shape?, Array.getElem?_modify, if_pos rfl, hc]
        rfl
    · cases h
  · cases h

/-- What a step can do, told once for all that depends on it. -/
theorem moves_of_step {e : Event} (hcurrent : t.current < t.cells.size) (h : t.step e = .ok t') :
    t.Moves e t' := by
  have hleaf (he : e.isBracket = false) (h : t.push (.leaf e) = .ok t') : t.Moves e t' := by
    obtain ⟨cells, rfl, hgrows⟩ := grows_of_push hcurrent h
    exact .leaf he hgrows
  cases e with
  | bracket b =>
    cases hside : b.side with
    | left =>
      simp only [step, hside, enter] at h
      cases hpush : t.push (.region b none) with
      | error v =>
        rw [hpush] at h
        cases h
      | ok s =>
        rw [hpush] at h
        cases h
        obtain ⟨cells, rfl, hgrows⟩ := grows_of_push hcurrent hpush
        exact .enter hside hgrows
    | right =>
      simp only [step, hside] at h
      obtain ⟨left, right, cells, hregion, rfl, hcloses⟩ := closes_of_leave h
      exact .leave hside hregion hcloses
  | chunk c => exact hleaf rfl h
  | value a => exact hleaf rfl h
  | marker m => exact hleaf rfl h

end Step

theorem run_concat (t : Arena) (es : List Event) (e : Event) :
    t.run (es ++ [e]) = (t.run es).bind (·.step e) := by
  rw [run, List.foldlM_append]
  simp only [List.foldlM_cons, List.foldlM_nil, bind_pure]
  rfl

/-- Induction over the events that an arena is built from. -/
theorem run_induction {motive : List Event → Arena → Prop} (nil : motive [] start)
    (concat : ∀ {es : List Event} {t t' : Arena} {e : Event}, start.run es = .ok t →
      t.step e = .ok t' → motive es t → motive (es ++ [e]) t')
    {es : List Event} {t : Arena} (h : start.run es = .ok t) : motive es t := by
  induction es using List.reverseRecOn generalizing t with
  | nil =>
    cases h
    exact nil
  | append_singleton es e ih =>
    rw [run_concat] at h
    cases hrun : start.run es with
    | error v =>
      rw [hrun] at h
      cases h
    | ok s =>
      rw [hrun] at h
      exact concat hrun h (ih hrun)

end Arena

end ParseLog
