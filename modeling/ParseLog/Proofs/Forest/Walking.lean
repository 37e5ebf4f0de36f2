import Mathlib.Data.List.Nodup
import Mathlib.Logic.Relation
import ParseLog.Proofs.Forest.Arena
import ParseLog.Proofs.Forest.Siblings
/-!
# Walks through the arena of a log

The body of a node stands in the arena in one piece, right after the node itself. So a walk from a
node ends and meets consecutive numbers, those of the nodes whose parents lead to the node.
-/

namespace ParseLog
set_option autoImplicit false

section Prefix
variable {α : Type} {a : α} {as bs : List α} {all : Array α} {n : Nat}

theorem getElem?_of_cons_prefix_drop (h : a :: as <+: all.toList.drop n) : all[n]? = some a := by
  obtain ⟨rest, heq⟩ := h
  rw [← Array.getElem?_toList, ← List.head?_drop, ← heq]
  rfl

theorem prefix_drop_of_append (h : as ++ bs <+: all.toList.drop n) :
    bs <+: all.toList.drop (n + as.length) := by
  obtain ⟨rest, heq⟩ := h
  refine ⟨rest, ?_⟩
  rw [← List.drop_drop, ← heq, List.append_assoc, List.drop_left]

theorem prefix_drop_of_cons (h : a :: as <+: all.toList.drop n) :
    as <+: all.toList.drop (n + 1) :=
  prefix_drop_of_append (List.singleton_append ▸ h : [a] ++ as <+: all.toList.drop n)

end Prefix

namespace Forest
variable {f : Forest} {next id : Nat}

theorem bounds_of_mem_ids (h : id ∈ f.ids next) : next ≤ id ∧ id < next + f.size := by
  induction f generalizing next with
  | nil => cases h
  | leaf e later ih =>
    rw [size]
    rcases List.mem_cons.mp h with rfl | h
    · omega
    · have := ih h
      omega
  | region left body right later _ ih =>
    rw [size]
    rcases List.mem_cons.mp h with rfl | h
    · omega
    · have := ih h
      omega

theorem pairwise_ids (f : Forest) (next : Nat) : (f.ids next).Pairwise (· < ·) := by
  induction f generalizing next with
  | nil => exact List.Pairwise.nil
  | leaf e later ih =>
    exact List.pairwise_cons.mpr ⟨fun id h => (bounds_of_mem_ids h).1, ih (next + 1)⟩
  | region left body right later _ ih =>
    refine List.pairwise_cons.mpr ⟨fun id h => ?_, ih (next + 1 + body.size)⟩
    have := (bounds_of_mem_ids h).1
    omega

theorem nodup_ids (f : Forest) (next : Nat) : (f.ids next).Nodup :=
  (pairwise_ids f next).imp Nat.ne_of_lt

end Forest

namespace Arena
variable {cells : Array Cell}

theorem parent?_of_getElem? {id : Nat} {c : Cell} (h : cells[id]? = some c) :
    parent? cells id = c.parent := by
  rw [parent?, h]
  rfl

theorem children_of_getElem? {id : Nat} {c : Cell} (h : cells[id]? = some c) :
    children cells id = c.body.toList := by
  rw [children, h]
  rfl

theorem children_of_size_le {id : Nat} (h : cells.size ≤ id) : children cells id = [] := by
  rw [children, Array.getElem?_eq_none h]
  rfl

theorem Walk.run_done (visited : Array Nat) : run cells ⟨visited, []⟩ = some visited := by
  rw [run]

theorem Walk.run_visit (visited : Array Nat) (id : Nat) (later : List Nat) :
    run cells ⟨visited, id :: later⟩ =
      run cells ⟨visited.push id, children cells id ++ later⟩ := by
  rw [run]

/-- Whether the nodes of a body stand side by side, the first under the number `next`. -/
def Holds (cells : Array Cell) (parent next : Nat) (f : Forest) : Prop :=
  f.cells parent next <+: cells.toList.drop next

structure HasBody (cells : Array Cell) (id : Nat) (body : Forest) : Prop where
  children_eq : children cells id = body.ids (id + 1)
  holds : Holds cells id (id + 1) body

/-- Whether `f` is a node under the number `next` with `inner` in it, and `later` after it. -/
structure Splits (cells : Array Cell) (parent next : Nat) (f inner later : Forest) : Prop where
  ids_eq : f.ids next = next :: later.ids (next + 1 + inner.size)
  size_eq : f.size = inner.size + later.size + 1
  parent?_eq : parent? cells next = some parent
  hasBody : HasBody cells next inner
  holds : Holds cells parent (next + 1 + inner.size) later

namespace Holds

theorem splits_leaf {parent next : Nat} {e : Event} {later : Forest}
    (h : Holds cells parent next (.leaf e later)) :
    Splits cells parent next (.leaf e later) .nil later where
  ids_eq := rfl
  size_eq := by simp [Forest.size, Nat.add_comm]
  parent?_eq := parent?_of_getElem? (getElem?_of_cons_prefix_drop h)
  hasBody := ⟨children_of_getElem? (getElem?_of_cons_prefix_drop h), List.nil_prefix⟩
  holds := prefix_drop_of_cons h

theorem splits_region {parent next : Nat} {left : Bracket} {right : Option Bracket}
    {inner later : Forest} (h : Holds cells parent next (.region left inner right later)) :
    Splits cells parent next (.region left inner right later) inner later where
  ids_eq := rfl
  size_eq := rfl
  parent?_eq := parent?_of_getElem? (getElem?_of_cons_prefix_drop h)
  hasBody := ⟨children_of_getElem? (getElem?_of_cons_prefix_drop h),
    (List.prefix_append _ _).trans (prefix_drop_of_cons h)⟩
  holds := by
    have hlater := prefix_drop_of_append (prefix_drop_of_cons h)
    rwa [Forest.length_cells] at hlater

/-- Induction over the nodes of a body, where a leaf is a node with nothing in it. -/
theorem induction
    {motive : ∀ {parent next : Nat} {f : Forest}, Holds cells parent next f → Prop}
    (nil : ∀ {parent next : Nat} (h : Holds cells parent next .nil), motive h)
    (cons : ∀ {parent next : Nat} {f inner later : Forest} (h : Holds cells parent next f)
      (hs : Splits cells parent next f inner later), motive hs.hasBody.holds → motive hs.holds →
      motive h)
    {parent next : Nat} {f : Forest} (h : Holds cells parent next f) : motive h := by
  induction f generalizing parent next with
  | nil => exact nil h
  | leaf e later ih =>
    have hs := h.splits_leaf
    exact cons h hs (nil hs.hasBody.holds) (ih hs.holds)
  | region left inner right later ihi ihl =>
    have hs := h.splits_region
    exact cons h hs (ihi hs.hasBody.holds) (ihl hs.holds)

variable {parent next id : Nat} {f : Forest}

theorem parent?_of_mem_ids (h : Holds cells parent next f) (hid : id ∈ f.ids next) :
    parent? cells id = some parent := by
  induction h using Holds.induction with
  | nil h => cases hid
  | cons h hs _ ih =>
    rw [hs.ids_eq] at hid
    rcases List.mem_cons.mp hid with rfl | hid
    · exact hs.parent?_eq
    · exact ih hid

/-- A walk over the nodes of a body meets all numbers from the first on. -/
theorem run_ids (h : Holds cells parent next f) (visited : Array Nat) (pending : List Nat) :
    Walk.run cells ⟨visited, f.ids next ++ pending⟩ =
      Walk.run cells ⟨visited ++ List.range' next f.size, pending⟩ := by
  induction h using Holds.induction generalizing visited pending with
  | nil h => simp [Forest.ids, Forest.size]
  | @cons parent next f inner later h hs ihi ihl =>
    calc Walk.run cells ⟨visited, f.ids next ++ pending⟩
        = Walk.run cells ⟨visited.push next,
            inner.ids (next + 1) ++ (later.ids (next + 1 + inner.size) ++ pending)⟩ := by
          rw [hs.ids_eq, List.cons_append, Walk.run_visit, hs.hasBody.children_eq]
      _ = Walk.run cells ⟨visited.push next ++ List.range' (next + 1) inner.size ++
            List.range' (next + 1 + inner.size) later.size, pending⟩ := by rw [ihi, ihl]
      _ = Walk.run cells ⟨visited ++ List.range' next f.size, pending⟩ := by
          congr 2
          apply Array.ext'
          simp [hs.size_eq, List.range'_succ]

/-- Each number stands for a node, whose body ends where the whole body does at the latest. -/
theorem exists_hasBody (h : Holds cells parent next f) (hle : next ≤ id)
    (hlt : id < next + f.size) :
    ∃ body, HasBody cells id body ∧ id + 1 + body.size ≤ next + f.size := by
  induction h using Holds.induction with
  | nil h => exact absurd hlt (Nat.not_lt_of_le hle)
  | @cons parent next f inner later h hs ihi ihl =>
    rw [hs.size_eq] at hlt ⊢
    rcases Nat.eq_or_lt_of_le hle with rfl | hle
    · exact ⟨inner, hs.hasBody, by omega⟩
    · rcases Nat.lt_or_ge id (next + 1 + inner.size) with hin | hout
      · obtain ⟨body, hbody, hsize⟩ := ihi hle hin
        exact ⟨body, hbody, by omega⟩
      · obtain ⟨body, hbody, hsize⟩ := ihl hout (by omega)
        exact ⟨body, hbody, by omega⟩

/-- A node stands in the body itself or in the body of an earlier node. -/
theorem mem_or_exists_mem (h : Holds cells parent next f) (hle : next ≤ id)
    (hlt : id < next + f.size) :
    id ∈ f.ids next ∨ ∃ p, next ≤ p ∧ p < id ∧ id ∈ children cells p := by
  induction h using Holds.induction with
  | nil h => exact absurd hlt (Nat.not_lt_of_le hle)
  | @cons parent next f inner later h hs ihi ihl =>
    rw [hs.size_eq] at hlt
    rw [hs.ids_eq]
    rcases Nat.eq_or_lt_of_le hle with rfl | hle
    · exact .inl List.mem_cons_self
    · rcases Nat.lt_or_ge id (next + 1 + inner.size) with hin | hout
      · rcases ihi hle hin with hmem | ⟨p, hp, hpid, hmem⟩
        · exact .inr ⟨next, Nat.le_refl _, hle, hs.hasBody.children_eq ▸ hmem⟩
        · exact .inr ⟨p, by omega, hpid, hmem⟩
      · rcases ihl hout (by omega) with hmem | ⟨p, hp, hpid, hmem⟩
        · exact .inl (List.mem_cons_of_mem _ hmem)
        · exact .inr ⟨p, by omega, hpid, hmem⟩

end Holds

/-- Whether the parents lead from the node `id` to the node `top`, which may be the same. -/
def Inside (cells : Array Cell) (top id : Nat) : Prop :=
  Relation.ReflTransGen (fun id p => parent? cells id = some p) id top

namespace HasBody
variable {id m p : Nat} {body : Forest}

theorem bounds_of_mem_children (h : HasBody cells id body) (hm : m ∈ children cells id) :
    id + 1 ≤ m ∧ m < id + 1 + body.size :=
  Forest.bounds_of_mem_ids (h.children_eq ▸ hm)

theorem parent?_of_mem_children (h : HasBody cells id body) (hm : m ∈ children cells id) :
    parent? cells m = some id :=
  h.holds.parent?_of_mem_ids (h.children_eq ▸ hm)

theorem nodup_children (h : HasBody cells id body) : (children cells id).Nodup :=
  h.children_eq ▸ Forest.nodup_ids body (id + 1)

theorem descendants_eq (h : HasBody cells id body) :
    descendants cells id = some (List.range' id (body.size + 1)) := by
  have hrun : Walk.run cells ⟨#[], [id]⟩ = some (#[id] ++ List.range' (id + 1) body.size) := by
    rw [Walk.run_visit, h.children_eq, h.holds.run_ids, Walk.run_done]
    rfl
  rw [descendants, hrun, List.range'_succ]
  simp

theorem exists_hasBody (h : HasBody cells id body) (hle : id ≤ m) (hlt : m < id + 1 + body.size) :
    ∃ inner, HasBody cells m inner ∧ m + 1 + inner.size ≤ id + 1 + body.size := by
  rcases Nat.eq_or_lt_of_le hle with rfl | hle
  · exact ⟨body, h, Nat.le_refl _⟩
  · exact h.holds.exists_hasBody hle hlt

theorem exists_parent (h : HasBody cells id body) (hle : id < m) (hlt : m < id + 1 + body.size) :
    ∃ p, id ≤ p ∧ p < m ∧ m ∈ children cells p := by
  rcases h.holds.mem_or_exists_mem hle hlt with hmem | ⟨p, hp, hpm, hmem⟩
  · exact ⟨id, Nat.le_refl id, hle, h.children_eq ▸ hmem⟩
  · exact ⟨p, Nat.le_of_succ_le hp, hpm, hmem⟩

theorem inside_of_bounds (h : HasBody cells id body) (hle : id ≤ m)
    (hlt : m < id + 1 + body.size) : Inside cells id m := by
  induction m using Nat.strongRecOn with
  | ind m ih =>
    rcases Nat.eq_or_lt_of_le hle with rfl | hle
    · exact .refl
    · obtain ⟨p, hp, hpm, hmem⟩ := h.exists_parent hle hlt
      obtain ⟨inner, hinner, -⟩ := h.exists_hasBody hp (Nat.lt_trans hpm hlt)
      exact .head (hinner.parent?_of_mem_children hmem) (ih p hpm hp (Nat.lt_trans hpm hlt))

theorem bounds_of_inside (h : HasBody cells id body)
    (hparent : ∀ {m p}, parent? cells m = some p → m ∈ children cells p)
    (hm : Inside cells id m) : id ≤ m ∧ m < id + 1 + body.size := by
  induction hm using Relation.ReflTransGen.head_induction_on with
  | refl => omega
  | head hmp _ ih =>
    obtain ⟨inner, hinner, hsize⟩ := h.exists_hasBody ih.1 ih.2
    have := hinner.bounds_of_mem_children (hparent hmp)
    omega

end HasBody

end Arena

namespace Forest
variable (f : Forest) {id p : Nat}

theorem size_allCells : f.allCells.toArray.size = f.size + 1 := by
  rw [List.size_toArray, allCells, List.length_cons, length_cells]

theorem parent?_root : Arena.parent? f.allCells.toArray 0 = none := rfl

theorem hasBody_root : Arena.HasBody f.allCells.toArray 0 f := ⟨rfl, List.prefix_refl _⟩

theorem exists_hasBody (h : id < f.allCells.toArray.size) :
    ∃ body, Arena.HasBody f.allCells.toArray id body ∧
      id + 1 + body.size ≤ f.allCells.toArray.size := by
  rw [size_allCells] at h ⊢
  obtain ⟨body, hbody, hsize⟩ := f.hasBody_root.exists_hasBody (Nat.zero_le id) (by omega)
  exact ⟨body, hbody, by omega⟩

theorem exists_parent (hpos : 0 < id) (h : id < f.allCells.toArray.size) :
    ∃ p < id, id ∈ Arena.children f.allCells.toArray p := by
  rw [size_allCells] at h
  obtain ⟨p, -, hlt, hmem⟩ := f.hasBody_root.exists_parent hpos (by omega)
  exact ⟨p, hlt, hmem⟩

theorem parent?_of_mem_children (h : id ∈ Arena.children f.allCells.toArray p) :
    Arena.parent? f.allCells.toArray id = some p := by
  rcases Nat.lt_or_ge p f.allCells.toArray.size with hlt | hle
  · obtain ⟨body, hbody, -⟩ := f.exists_hasBody hlt
    exact hbody.parent?_of_mem_children h
  · rw [Arena.children_of_size_le hle] at h
    cases h

/-- Only what is in a body has a parent. -/
theorem exists_of_parent? (h : Arena.parent? f.allCells.toArray id = some p) :
    p < id ∧ id ∈ Arena.children f.allCells.toArray p := by
  have hpos : 0 < id := by
    refine Nat.pos_of_ne_zero fun hzero => ?_
    rw [hzero, parent?_root] at h
    cases h
  have hlt : id < f.allCells.toArray.size := by
    obtain ⟨c, hc, -⟩ := Option.bind_eq_some_iff.mp h
    exact (Array.getElem?_eq_some_iff.mp hc).1
  obtain ⟨q, hq, hmem⟩ := f.exists_parent hpos hlt
  obtain rfl : q = p := Option.some.inj ((f.parent?_of_mem_children hmem).symm.trans h)
  exact ⟨hq, hmem⟩

theorem isTree_allCells : Arena.IsTree f.allCells.toArray where
  parent_lt h := (f.exists_of_parent? h).1
  mem_iff := ⟨f.parent?_of_mem_children, fun h => (f.exists_of_parent? h).2⟩
  nodup p := by
    rcases Nat.lt_or_ge p f.allCells.toArray.size with hlt | hle
    · obtain ⟨body, hbody, -⟩ := f.exists_hasBody hlt
      exact hbody.nodup_children
    · rw [Arena.children_of_size_le hle]
      exact List.nodup_nil

end Forest

/-- Numbers in the order of a walk, one body around each node, and siblings as they stand in it. -/
structure Arena.IsOrderedTree (cells : Array Cell) : Prop where
  descendants_root : descendants cells 0 = some (List.range cells.size)
  /-- What a walk from a node meets are the next numbers, as many as nodes are inside it. -/
  descendants_eq : ∀ id < cells.size, ∃ count, descendants cells id = some (List.range' id count) ∧
    ∀ m, m ∈ List.range' id count ↔ Inside cells id m
  parent?_root : parent? cells 0 = none
  exists_parent : ∀ id, 0 < id → id < cells.size → ∃ p < id, parent? cells id = some p
  count_children : ∀ p id, (children cells p).count id = if parent? cells id = some p then 1 else 0
  nextSibling_iff : ∀ a b, nextSibling cells a = some b ↔ prevSibling cells b = some a
  laterSiblings_eq : ∀ a p, parent? cells a = some p →
    ∃ earlier, children cells p = earlier ++ a :: laterSiblings cells a
  firstChild_iff : ∀ p a,
    firstChild cells p = some a ↔ a ∈ children cells p ∧ prevSibling cells a = none
  lastChild_iff : ∀ p a,
    lastChild cells p = some a ↔ a ∈ children cells p ∧ nextSibling cells a = none

theorem Forest.isOrderedTree_allCells (f : Forest) : Arena.IsOrderedTree f.allCells.toArray where
  descendants_root := by
    rw [f.hasBody_root.descendants_eq, size_allCells, List.range_eq_range']
  descendants_eq id hlt := by
    obtain ⟨body, hbody, -⟩ := f.exists_hasBody hlt
    refine ⟨body.size + 1, hbody.descendants_eq, fun m => ?_⟩
    rw [List.mem_range'_1]
    constructor
    · rintro ⟨hle, hlt⟩
      exact hbody.inside_of_bounds hle (by omega)
    · intro hm
      have := hbody.bounds_of_inside (fun h => (f.exists_of_parent? h).2) hm
      omega
  parent?_root := f.parent?_root
  exists_parent id hpos hlt := by
    obtain ⟨p, hp, hmem⟩ := f.exists_parent hpos hlt
    exact ⟨p, hp, f.parent?_of_mem_children hmem⟩
  count_children := f.isTree_allCells.count_children
  nextSibling_iff _ _ := f.isTree_allCells.nextSibling_iff_prevSibling
  laterSiblings_eq _ _ h := f.isTree_allCells.exists_split h
  firstChild_iff _ _ := f.isTree_allCells.firstChild_eq_some_iff
  lastChild_iff _ _ := f.isTree_allCells.lastChild_eq_some_iff

theorem Log.arena_isOrderedTree {l : Log} {cells : Array Cell}
    (h : Arena.ofEvents l.toList = .ok cells) : Arena.IsOrderedTree cells := by
  rw [Arena.ofEvents_eq] at h
  cases hf : Forest.ofEvents l.toList with
  | error v =>
    rw [hf] at h
    cases h
  | ok f =>
    rw [hf] at h
    obtain rfl := Except.ok.inj h
    simp only [Forest.map_cell_descendants]
    exact f.isOrderedTree_allCells

/-! ### A log with a closed region before an open one -/

namespace Ongoing

def item : Region := .boundary ⟨"Item", by decide +kernel⟩

def started : Log := .ofList
  [.chunk (.plain "a"), .bracket ⟨.left, item⟩, .chunk (.plain "b"), .bracket ⟨.right, item⟩,
    .bracket ⟨.left, .embed .html⟩, .marker .loop]

def nodes : Array Cell :=
  #[⟨none, #[1, 2, 4], .root⟩, ⟨some 0, #[], .leaf (.chunk (.plain "a"))⟩,
    ⟨some 0, #[3], .region ⟨.left, item⟩ (some ⟨.right, item⟩)⟩,
    ⟨some 2, #[], .leaf (.chunk (.plain "b"))⟩,
    ⟨some 0, #[5], .region ⟨.left, .embed .html⟩ none⟩, ⟨some 4, #[], .leaf (.marker .loop)⟩]

end Ongoing

open Ongoing Arena in
theorem Log.arena_isOrderedTree_ongoing :
    ofEvents started.toList = .ok nodes ∧ descendants nodes 0 = some [0, 1, 2, 3, 4, 5] ∧
      prevSibling nodes 4 = some 2 ∧ (children nodes 2).count 3 = 1 := by
  have hnodes : ofEvents started.toList = .ok nodes := by rfl
  have htree := arena_isOrderedTree hnodes
  exact ⟨hnodes, htree.descendants_root, (htree.nextSibling_iff 2 4).mp (by decide),
    htree.count_children 2 3⟩

end ParseLog
