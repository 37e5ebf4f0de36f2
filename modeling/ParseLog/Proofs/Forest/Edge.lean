import Mathlib.Data.List.Chain
import ParseLog.Proofs.Forest.Changes
import ParseLog.Proofs.Forest.Walking
/-!
# The right edge

The open regions of an arena are those on its stack. From the current one outwards they form a chain
that ends at the root, each of them the last node in the body of the next, and the nodes from one of
them on are those inside it. So what is recorded while a region is open goes inside it.
-/

namespace ParseLog
set_option autoImplicit false

/-- The events that a node of this shape stands for itself. -/
def Shape.events : Shape → List Event
  | .root => []
  | .leaf e => [e]
  | .region left right => .bracket left :: right.toList.map Event.bracket

namespace Arena

/-- Whether the node `id` is the last one in the body of `p`. -/
def IsLastIn (cells : Array Cell) (id p : Nat) : Prop :=
  parent? cells id = some p ∧ lastChild cells p = some id

/-- The open regions from the current one outwards, and the root. -/
def path (t : Arena) : List Nat := t.opened ++ [0]

theorem path_eq (t : Arena) : t.path = t.current :: t.path.tail := by
  unfold path current
  cases t.opened <;> rfl

/-- What every step keeps. -/
structure IsEdge (t : Arena) : Prop where
  root : shape? t.cells 0 = some .root
  current_lt : t.current < t.cells.size
  descending : t.path.Pairwise (· > ·)
  isOpen_iff : ∀ id, isOpen t.cells id = true ↔ id ∈ t.opened
  chain : t.path.IsChain (IsLastIn t.cells)
  inside : ∀ id ∈ t.path, ∀ m, id ≤ m → m < t.cells.size → Inside t.cells id m

theorem isEdge_start : start.IsEdge where
  root := rfl
  current_lt := Nat.zero_lt_one
  descending := List.pairwise_singleton _ _
  isOpen_iff id := by
    constructor
    · intro hopen
      obtain ⟨left, hleft⟩ := isOpen_eq_true_iff.mp hopen
      cases id <;> cases hleft
    · nofun
  chain := .singleton _
  inside id hid m _ hlt := by
    obtain rfl : id = 0 := List.mem_singleton.mp hid
    obtain rfl : m = 0 := Nat.lt_one_iff.mp hlt
    exact .refl

section Inside
variable {t : Arena} {shape : Shape} {left b : Bracket} {cells : Array Cell} {top m : Nat}

theorem Grows.inside (h : t.Grows shape cells) (hm : Inside t.cells top m) :
    Inside cells top m := by
  refine Relation.ReflTransGen.mono (fun id p hp => ?_) _ _ hm
  rw [h.parent?_eq, if_neg]
  · exact hp
  · rintro rfl
    rw [parent?, Array.getElem?_eq_none (Nat.le_refl _)] at hp
    cases hp

theorem Closes.inside (h : t.Closes left b cells) (hm : Inside t.cells top m) : Inside cells top m :=
  Relation.ReflTransGen.mono (fun id _ hp => (h.parent?_eq id).trans hp) _ _ hm

end Inside

namespace IsEdge
variable {t t' : Arena} {id : Nat} (h : t.IsEdge)
include h

theorem lt_current (hid : id ∈ t.path.tail) : id < t.current := by
  have hdescending := h.descending
  rw [path_eq] at hdescending
  exact (List.pairwise_cons.mp hdescending).1 id hid

theorem le_current (hid : id ∈ t.path) : id ≤ t.current := by
  rw [path_eq] at hid
  rcases List.mem_cons.mp hid with rfl | hid
  · exact Nat.le_refl _
  · exact Nat.le_of_lt (h.lt_current hid)

theorem lt_size (hid : id ∈ t.path) : id < t.cells.size :=
  Nat.lt_of_le_of_lt (h.le_current hid) h.current_lt

theorem size_notMem_opened : t.cells.size ∉ t.opened := fun hmem =>
  Nat.lt_irrefl _ (h.lt_size (List.mem_append_left _ hmem))

section Grows
variable {shape : Shape} {cells : Array Cell} (hgrows : t.Grows shape cells)
include hgrows

theorem root_of_grows : shape? cells 0 = some .root := by
  rw [hgrows.shape?_eq, if_neg, h.root]
  exact Nat.ne_of_lt (Nat.lt_of_le_of_lt (Nat.zero_le _) h.current_lt)

theorem isOpen_of_grows : isOpen cells id = true ↔
    (id = t.cells.size ∧ shape.isOpen = true) ∨ id ∈ t.opened := by
  rw [isOpen, hgrows.shape?_eq, ← h.isOpen_iff]
  by_cases hnew : id = t.cells.size
  · have hnot : ¬ isOpen t.cells t.cells.size = true := fun hopen =>
      h.size_notMem_opened ((h.isOpen_iff _).mp hopen)
    simp [hnew, hnot]
  · simp [hnew, isOpen]

theorem chain_of_grows : t.path.IsChain (IsLastIn cells) := by
  refine h.chain.imp_of_mem_tail_imp fun id p hid hp ⟨hparent, hlast⟩ => ⟨?_, ?_⟩
  · rw [hgrows.parent?_eq, if_neg (Nat.ne_of_lt (h.lt_size hid)), hparent]
  · rw [lastChild, hgrows.children_eq, if_neg (Nat.ne_of_lt (h.lt_current hp))]
    exact hlast

theorem inside_of_grows (hid : id ∈ t.path) {m : Nat} (hle : id ≤ m) (hlt : m < cells.size) :
    Inside cells id m := by
  rw [hgrows.size_eq] at hlt
  rcases Nat.lt_succ_iff_lt_or_eq.mp hlt with hlt | rfl
  · exact hgrows.inside (h.inside id hid m hle hlt)
  · have hparent : parent? cells t.cells.size = some t.current := by
      rw [hgrows.parent?_eq, if_pos rfl]
    exact .head hparent (hgrows.inside (h.inside id hid _ (h.le_current hid) h.current_lt))

theorem leaf_of_grows (hshape : shape.isOpen = false) : IsEdge ⟨cells, t.opened⟩ where
  root := h.root_of_grows hgrows
  current_lt := by
    rw [hgrows.size_eq]
    exact Nat.lt_succ_of_lt h.current_lt
  descending := h.descending
  isOpen_iff id := by simp [h.isOpen_of_grows hgrows, hshape]
  chain := h.chain_of_grows hgrows
  inside _ hid _ := h.inside_of_grows hgrows hid

theorem enter_of_grows (hshape : shape.isOpen = true) :
    IsEdge ⟨cells, t.cells.size :: t.opened⟩ where
  root := h.root_of_grows hgrows
  current_lt := by
    rw [hgrows.size_eq]
    exact Nat.lt_succ_self _
  descending := List.pairwise_cons.mpr ⟨fun _ hid => h.lt_size hid, h.descending⟩
  isOpen_iff id := by simp [h.isOpen_of_grows hgrows, hshape]
  chain := by
    have hchain := h.chain_of_grows hgrows
    rw [path_eq] at hchain
    have hlast : IsLastIn cells t.cells.size t.current := by
      constructor
      · rw [hgrows.parent?_eq, if_pos rfl]
      · rw [lastChild, hgrows.children_eq, if_pos rfl, List.getLast?_concat]
    rw [path, List.cons_append, ← path, path_eq]
    exact List.isChain_cons_cons.mpr ⟨hlast, hchain⟩
  inside id hid m hle hlt := by
    rcases List.mem_cons.mp hid with rfl | hid
    · rw [hgrows.size_eq] at hlt
      obtain rfl : m = t.cells.size := Nat.le_antisymm (Nat.lt_succ_iff.mp hlt) hle
      exact .refl
    · exact h.inside_of_grows hgrows hid hle hlt

end Grows

section Closes
variable {left b : Bracket} {right : Option Bracket} {cells : Array Cell}
  (hregion : shape? t.cells t.current = some (.region left right))
  (hcloses : t.Closes left b cells)
include hregion

theorem opened_eq : t.opened = t.current :: t.opened.tail := by
  cases hopened : t.opened with
  | nil =>
    rw [current, hopened, List.headD_nil, h.root] at hregion
    cases hregion
  | cons id outer => rw [current, hopened, List.headD_cons, List.tail_cons]

theorem right_eq_none : right = none := by
  have hmem : t.current ∈ t.opened := h.opened_eq hregion ▸ List.mem_cons_self
  obtain ⟨left', hleft'⟩ := isOpen_eq_true_iff.mp ((h.isOpen_iff _).mpr hmem)
  cases hregion.symm.trans hleft'
  rfl

include hcloses

theorem leave_of_closes : IsEdge ⟨cells, t.opened.tail⟩ := by
  have hopened := h.opened_eq hregion
  have hpath : path ⟨cells, t.opened.tail⟩ = t.path.tail := by
    rw [path, path, hopened]
    rfl
  have hmem {id : Nat} (hid : id ∈ path ⟨cells, t.opened.tail⟩) : id ∈ t.path :=
    List.mem_of_mem_tail (hpath ▸ hid)
  constructor
  case root =>
    rw [hcloses.shape?_eq, h.root]
    rintro hzero
    rw [← hzero, h.root] at hregion
    cases hregion
  case current_lt =>
    rw [hcloses.size_eq]
    exact h.lt_size (hmem (path_eq ⟨cells, t.opened.tail⟩ ▸ List.mem_cons_self))
  case descending =>
    rw [hpath]
    exact h.descending.tail
  case isOpen_iff =>
    intro id
    by_cases hid : id = t.current
    · have hnot : t.current ∉ t.opened.tail := fun hmem' =>
        Nat.lt_irrefl _ (h.lt_current (hpath ▸ List.mem_append_left _ hmem'))
      simp [hid, isOpen, hcloses.shape?_current, Shape.isOpen, hnot]
    · rw [isOpen, hcloses.shape?_eq id hid, ← isOpen, h.isOpen_iff, hopened, List.mem_cons,
        List.tail_cons, or_iff_right hid]
  case chain =>
    rw [hpath]
    refine h.chain.tail.imp ?_
    rintro id p ⟨hparent, hlast⟩
    constructor
    · rw [hcloses.parent?_eq, hparent]
    · rw [lastChild, hcloses.children_eq]
      exact hlast
  case inside =>
    intro id hid m hle hlt
    exact hcloses.inside (h.inside id (hmem hid) m hle (hcloses.size_eq ▸ hlt))

end Closes

theorem step {e : Event} (hstep : t.step e = .ok t') : t'.IsEdge := by
  cases moves_of_step h.current_lt hstep with
  | leaf _ hgrows => exact h.leaf_of_grows hgrows rfl
  | enter _ hgrows => exact h.enter_of_grows hgrows rfl
  | leave _ hregion hcloses => exact h.leave_of_closes hregion hcloses

end IsEdge

theorem isEdge_run {es : List Event} {t : Arena} (h : start.run es = .ok t) : t.IsEdge :=
  run_induction (motive := fun _ t => t.IsEdge) isEdge_start (fun _ hstep ih => ih.step hstep) h

/-! ### How many regions are open -/

theorem IsEdge.countP_isOpen {t : Arena} (h : t.IsEdge) :
    (List.range t.cells.size).countP (isOpen t.cells) = t.opened.length := by
  have hnodup : t.opened.Nodup := (List.pairwise_append.mp h.descending).1.imp Nat.ne_of_gt
  rw [List.countP_eq_length_filter]
  apply List.Perm.length_eq
  refine (List.perm_ext_iff_of_nodup (List.nodup_range.filter _) hnodup).mpr fun id => ?_
  rw [List.mem_filter, List.mem_range, h.isOpen_iff]
  exact and_iff_right_of_imp fun hid => h.lt_size (List.mem_append_left _ hid)

end Arena

/-- Whether the event is a bracket on the side `s`. -/
def Event.isOn (s : Side) : Event → Bool
  | bracket b => b.side = s
  | _ => false

@[simp] theorem Event.isOn_bracket (s : Side) (b : Bracket) :
    (bracket b).isOn s = decide (b.side = s) := rfl

theorem Event.isOn_of_not_bracket {e : Event} (h : e.isBracket = false) (s : Side) :
    e.isOn s = false := by
  cases e <;> first | rfl | cases h

namespace Arena

theorem IsEdge.length_opened_step {t t' : Arena} {e : Event} (h : t.IsEdge)
    (hstep : t.step e = .ok t') :
    t'.opened.length + [e].countP (Event.isOn .right) =
      t.opened.length + [e].countP (Event.isOn .left) := by
  cases moves_of_step h.current_lt hstep with
  | leaf event _ => simp [Event.isOn_of_not_bracket event]
  | enter side _ => simp [side]
  | leave side region _ =>
    rw [h.opened_eq region]
    simp [side]

theorem length_opened_run {es : List Event} {t : Arena} (h : start.run es = .ok t) :
    t.opened.length + es.countP (Event.isOn .right) = es.countP (Event.isOn .left) := by
  refine run_induction (motive := fun es t => t.opened.length + es.countP (Event.isOn .right) =
    es.countP (Event.isOn .left)) rfl (fun {es t t' e} hrun hstep ih => ?_) h
  have hlast := (isEdge_run hrun).length_opened_step hstep
  rw [List.countP_append, List.countP_append]
  omega

/-! ### Where events go -/

/-- The node that the next event goes to: a new one, or the region that a right bracket closes. -/
def target (t : Arena) (e : Event) : Nat := if e.isOn .right then t.current else t.cells.size

theorem target_of_not_right {t : Arena} {e : Event} (h : e.isOn .right = false) :
    t.target e = t.cells.size := if_neg (by simp [h])

theorem target_of_right {t : Arena} {e : Event} (h : e.isOn .right = true) :
    t.target e = t.current := if_pos h

/-- Whether the event after the events `before` goes to the node `id`. -/
def GoesTo (before : List Event) (e : Event) (id : Nat) : Prop :=
  ∃ t, start.run before = .ok t ∧ t.target e = id

/-- Whether the event is that of the node `id` or one of its brackets. -/
def Shows (cells : Array Cell) (id : Nat) (e : Event) : Prop :=
  ∃ shape, shape? cells id = some shape ∧ e ∈ shape.events

section Target
variable {t t' : Arena} {e : Event} {id : Nat} (h : t.IsEdge) (hstep : t.step e = .ok t')
include h hstep

theorem IsEdge.size_le_of_step : t.cells.size ≤ t'.cells.size := by
  cases moves_of_step h.current_lt hstep with
  | leaf _ grows => exact grows.size_eq ▸ Nat.le_succ _
  | enter _ grows => exact grows.size_eq ▸ Nat.le_succ _
  | leave _ _ closes => exact Nat.le_of_eq closes.size_eq.symm

theorem IsEdge.target_bounds (hid : id ∈ t.path) :
    id ≤ t.target e ∧ t.target e < t'.cells.size := by
  cases moves_of_step h.current_lt hstep with
  | leaf event grows =>
    rw [target_of_not_right (Event.isOn_of_not_bracket event _), grows.size_eq]
    exact ⟨Nat.le_of_lt (h.lt_size hid), Nat.lt_succ_self _⟩
  | enter side grows =>
    rw [target_of_not_right (by simp [side]), grows.size_eq]
    exact ⟨Nat.le_of_lt (h.lt_size hid), Nat.lt_succ_self _⟩
  | leave side _ closes =>
    rw [target_of_right (by simp [side]), closes.size_eq]
    exact ⟨h.le_current hid, h.current_lt⟩

theorem IsEdge.shows_target : Shows t'.cells (t.target e) e := by
  cases moves_of_step h.current_lt hstep with
  | leaf event grows =>
    rw [target_of_not_right (Event.isOn_of_not_bracket event _)]
    exact ⟨_, by rw [grows.shape?_eq, if_pos rfl], List.mem_singleton_self _⟩
  | enter side grows =>
    rw [target_of_not_right (by simp [side])]
    exact ⟨_, by rw [grows.shape?_eq, if_pos rfl], List.mem_cons_self⟩
  | leave side _ closes =>
    rw [target_of_right (by simp [side])]
    exact ⟨_, closes.shape?_current, by simp [Shape.events]⟩

theorem IsEdge.shows_of_step {e' : Event} (hshows : Shows t.cells id e') :
    Shows t'.cells id e' := by
  obtain ⟨shape, hshape, he'⟩ := hshows
  have hold : id ≠ t.cells.size := by
    rintro rfl
    rw [shape?, Array.getElem?_eq_none (Nat.le_refl _)] at hshape
    cases hshape
  cases moves_of_step h.current_lt hstep with
  | leaf _ grows => exact ⟨shape, by rw [grows.shape?_eq, if_neg hold, hshape], he'⟩
  | enter _ grows => exact ⟨shape, by rw [grows.shape?_eq, if_neg hold, hshape], he'⟩
  | leave _ region closes =>
    by_cases hid : id = t.current
    -- The region that is closed had no right bracket, so it loses none.
    · obtain rfl := h.right_eq_none region
      subst hid
      obtain rfl := Option.some.inj (hshape.symm.trans region)
      obtain rfl := List.mem_singleton.mp he'
      exact ⟨_, closes.shape?_current, List.mem_cons_self⟩
    · exact ⟨shape, (closes.shape?_eq id hid).trans hshape, he'⟩

/-- A region that is open was open before or has just been entered. -/
theorem IsEdge.mem_opened_cases (hid : id ∈ t'.opened) :
    (id ∈ t.opened ∧ shape? t'.cells id = shape? t.cells id) ∨
      (id = t.cells.size ∧ ∃ left, left.side = .left ∧ e = .bracket left ∧
        shape? t'.cells id = some (.region left none)) := by
  cases moves_of_step h.current_lt hstep with
  | leaf _ grows =>
    refine .inl ⟨hid, ?_⟩
    rw [grows.shape?_eq, if_neg (Nat.ne_of_lt (h.lt_size (List.mem_append_left _ hid)))]
  | @enter b _ side grows =>
    rcases List.mem_cons.mp hid with rfl | hid
    · exact .inr ⟨rfl, b, side, rfl, by rw [grows.shape?_eq, if_pos rfl]⟩
    · refine .inl ⟨hid, ?_⟩
      rw [grows.shape?_eq, if_neg (Nat.ne_of_lt (h.lt_size (List.mem_append_left _ hid)))]
  | leave _ region closes =>
    have hmem : id ∈ t.path.tail := by
      rw [path, h.opened_eq region]
      exact List.mem_append_left _ hid
    exact .inl ⟨List.mem_of_mem_tail hid, closes.shape?_eq id (Nat.ne_of_lt (h.lt_current hmem))⟩

end Target

/-- Whether the region `id` was entered by `left` after the events `before`, and the events `after`
have gone to nodes from it on. -/
structure OpenSince (t : Arena) (id : Nat) (before : List Event) (left : Bracket)
    (after : List Event) : Prop where
  shape?_eq : shape? t.cells id = some (.region left none)
  side : left.side = .left
  entered : GoesTo before (.bracket left) id
  since : ∀ earlier e later, after = earlier ++ e :: later →
    ∃ m, GoesTo (before ++ .bracket left :: earlier) e m ∧ Shows t.cells m e ∧ id ≤ m ∧
      m < t.cells.size

theorem OpenSince.concat {t t' : Arena} {id : Nat} {before after : List Event} {left : Bracket}
    {e : Event} (h : t.OpenSince id before left after) (hid : id ∈ t.opened)
    (hrun : start.run (before ++ .bracket left :: after) = .ok t) (hstep : t.step e = .ok t')
    (hshape : shape? t'.cells id = shape? t.cells id) :
    t'.OpenSince id before left (after ++ [e]) := by
  have hedge := isEdge_run hrun
  refine ⟨hshape.trans h.shape?_eq, h.side, h.entered, fun earlier e' later hsplit => ?_⟩
  rcases List.eq_nil_or_concat later with rfl | ⟨later, last, rfl⟩
  · obtain ⟨rfl, he⟩ := List.append_inj' hsplit rfl
    obtain rfl := List.singleton_inj.mp he
    exact ⟨_, ⟨t, hrun, rfl⟩, hedge.shows_target hstep,
      hedge.target_bounds hstep (List.mem_append_left _ hid)⟩
  · rw [List.concat_eq_append, ← List.cons_append, ← List.append_assoc] at hsplit
    obtain ⟨m, hm, hshows, hle, hlt⟩ := h.since _ _ _ (List.append_inj' hsplit rfl).1
    exact ⟨m, hm, hedge.shows_of_step hstep hshows, hle,
      Nat.lt_of_lt_of_le hlt (hedge.size_le_of_step hstep)⟩

/-- A region on the stack has stood there since its left bracket. -/
theorem exists_openSince {es : List Event} {t : Arena} (h : start.run es = .ok t) :
    ∀ id ∈ t.opened, ∃ before left after, es = before ++ .bracket left :: after ∧
      t.OpenSince id before left after := by
  refine run_induction (motive := fun es t => ∀ id ∈ t.opened, ∃ before left after,
    es = before ++ .bracket left :: after ∧ t.OpenSince id before left after) nofun ?_ h
  intro es t t' e hrun hstep ih id hid
  rcases (isEdge_run hrun).mem_opened_cases hstep hid with
    ⟨hid, hshape⟩ | ⟨rfl, left, hside, rfl, hshape⟩
  · obtain ⟨before, left, after, rfl, hsince⟩ := ih id hid
    exact ⟨before, left, after ++ [e], by simp, hsince.concat hid hrun hstep hshape⟩
  · have hentered : t.target (.bracket left) = t.cells.size :=
      target_of_not_right (by simp [hside])
    exact ⟨es, left, [], rfl, hshape, hside, ⟨t, hrun, hentered⟩, by simp⟩

theorem IsEdge.exists_isLastIn {t : Arena} (h : t.IsEdge) {id : Nat} (hid : id ∈ t.opened) :
    ∃ p ∈ t.path, IsLastIn t.cells id p := by
  obtain ⟨inner, outer, hopened⟩ := List.append_of_mem hid
  obtain ⟨p, rest, hrest⟩ := List.exists_cons_of_ne_nil (List.concat_ne_nil 0 outer)
  have hpath : t.path = inner ++ id :: p :: rest := by
    rw [path, hopened, List.append_assoc, List.cons_append, hrest]
  have hchain := h.chain
  rw [hpath] at hchain
  refine ⟨p, by simp [hpath], ?_⟩
  exact (List.isChain_cons_cons.mp (List.isChain_append.mp hchain).2.1).1

theorem exists_allCells {es : List Event} {cells : Array Cell} (h : ofEvents es = .ok cells) :
    ∃ f : Forest, cells = f.allCells.toArray := by
  rw [ofEvents_eq] at h
  cases hf : Forest.ofEvents es with
  | error v =>
    rw [hf] at h
    cases h
  | ok f =>
    rw [hf] at h
    refine ⟨f, (Except.ok.inj h).symm.trans ?_⟩
    rw [← Forest.map_cell_descendants]

end Arena

open Arena in
/-- Open regions form one chain at the right edge: each is the last node in the body of its parent,
which is the root or an open region itself. There are as many as left brackets without their right
ones. Every event since the left bracket of an open region has gone to a node in it. -/
theorem Log.openRegions_at_edge {l : Log} {cells : Array Cell} (h : ofEvents l.toList = .ok cells) :
    (∀ id, isOpen cells id = true → ∃ p, parent? cells id = some p ∧
      lastChild cells p = some id ∧ (p = 0 ∨ isOpen cells p = true)) ∧
    (List.range cells.size).countP (isOpen cells) + l.toList.countP (Event.isOn .right) =
      l.toList.countP (Event.isOn .left) ∧
    ∀ id, isOpen cells id = true → ∃ before left after below,
      shape? cells id = some (.region left none) ∧ left.side = .left ∧
      l.toList = before ++ .bracket left :: after ∧ GoesTo before (.bracket left) id ∧
      descendants cells id = some below ∧
      ∀ earlier e later, after = earlier ++ e :: later →
        ∃ m ∈ below, GoesTo (before ++ .bracket left :: earlier) e m ∧ Shows cells m e := by
  obtain ⟨f, hf⟩ := exists_allCells h
  cases hrun : start.run l.toList with
  | error v =>
    rw [ofEvents, hrun] at h
    cases h
  | ok t =>
    rw [ofEvents, hrun] at h
    obtain rfl : t.cells = cells := Except.ok.inj h
    have hedge := isEdge_run hrun
    refine ⟨fun id hid => ?_, ?_, fun id hid => ?_⟩
    · obtain ⟨p, hp, hparent, hlast⟩ := hedge.exists_isLastIn ((hedge.isOpen_iff id).mp hid)
      refine ⟨p, hparent, hlast, ?_⟩
      rcases List.mem_append.mp hp with hp | hp
      · exact .inr ((hedge.isOpen_iff p).mpr hp)
      · exact .inl (List.mem_singleton.mp hp)
    · rw [hedge.countP_isOpen, length_opened_run hrun]
    · have hopened := (hedge.isOpen_iff id).mp hid
      have hpath : id ∈ t.path := List.mem_append_left _ hopened
      obtain ⟨before, left, after, hsplit, hsince⟩ := exists_openSince hrun id hopened
      obtain ⟨count, hbelow, hmem⟩ : ∃ count, descendants t.cells id =
          some (List.range' id count) ∧ ∀ m, m ∈ List.range' id count ↔ Inside t.cells id m := by
        have hlt := hedge.lt_size hpath
        rw [hf] at hlt ⊢
        exact f.isOrderedTree_allCells.descendants_eq id hlt
      refine ⟨before, left, after, _, hsince.shape?_eq, hsince.side, hsplit, hsince.entered, hbelow,
        fun earlier e later hafter => ?_⟩
      obtain ⟨m, hm, hshows, hle, hlt⟩ := hsince.since earlier e later hafter
      exact ⟨m, (hmem m).mpr (hedge.inside id hpath m hle hlt), hm, hshows⟩

/-! ### A log with one open region in another -/

namespace Stacked

def card : Region := .boundary ⟨"Card", by decide +kernel⟩

def started : Log := .ofList
  [.bracket ⟨.left, .embed .html⟩, .bracket ⟨.left, card⟩, .chunk (.plain "a"),
    .bracket ⟨.right, card⟩, .bracket ⟨.left, card⟩, .marker .loop]

def nodes : Array Cell :=
  #[⟨none, #[1], .root⟩, ⟨some 0, #[2, 4], .region ⟨.left, .embed .html⟩ none⟩,
    ⟨some 1, #[3], .region ⟨.left, card⟩ (some ⟨.right, card⟩)⟩,
    ⟨some 2, #[], .leaf (.chunk (.plain "a"))⟩, ⟨some 1, #[5], .region ⟨.left, card⟩ none⟩,
    ⟨some 4, #[], .leaf (.marker .loop)⟩]

end Stacked

open Stacked Arena in
theorem Log.openRegions_at_edge_stacked :
    ofEvents started.toList = .ok nodes ∧
      (isOpen nodes 4 = true ∧ parent? nodes 4 = some 1 ∧ lastChild nodes 1 = some 4) ∧
      (List.range nodes.size).countP (isOpen nodes) + 1 = 3 := by
  have hnodes : ofEvents started.toList = .ok nodes := by rfl
  obtain ⟨hlast, hcount, -⟩ := openRegions_at_edge hnodes
  have hopen : isOpen nodes 4 = true := by decide
  obtain ⟨p, hparent, hchild, -⟩ := hlast 4 hopen
  obtain rfl : 1 = p := Option.some.inj hparent
  exact ⟨hnodes, ⟨hopen, hparent, hchild⟩, hcount⟩

end ParseLog
