import Mathlib.Data.List.Nodup
import ParseLog.Forest.Navigation
/-!
# Siblings in an arena

In an arena that is a tree every node but the root stands once in one body, the body of its parent.
What comes before and after a node among its siblings can then be told from the places in that body.
-/

namespace ParseLog
set_option autoImplicit false

namespace Arena

/-- Whether bodies and parents agree, and parents have smaller numbers. -/
structure IsTree (cells : Array Cell) : Prop where
  parent_lt : ∀ {id p}, parent? cells id = some p → p < id
  nodup : ∀ p, (children cells p).Nodup
  mem_iff : ∀ {p id}, id ∈ children cells p ↔ parent? cells id = some p

namespace IsTree
variable {cells : Array Cell} (h : IsTree cells) {a b p i : Nat} {siblings : List Nat}
include h

theorem count_children (p id : Nat) :
    (children cells p).count id = if parent? cells id = some p then 1 else 0 := by
  rw [(h.nodup p).count]
  simp only [h.mem_iff]

theorem place?_of_getElem? (ha : (children cells p)[i]? = some a) :
    place? cells a = some (children cells p, i) := by
  have hparent : parent? cells a = some p := h.mem_iff.mp (List.mem_of_getElem? ha)
  obtain ⟨hi, hget⟩ := List.getElem?_eq_some_iff.mp ha
  have hfind : (children cells p).findIdx? (· == a) = some i := by
    refine List.findIdx?_eq_some_iff_getElem.mpr ⟨hi, by simp [hget], fun j hj => ?_⟩
    have hne : (children cells p)[j] ≠ (children cells p)[i] := fun heq =>
      absurd ((h.nodup p).getElem_inj_iff.mp heq) (Nat.ne_of_lt hj)
    simpa [← hget] using hne
  simp [place?, hparent, hfind]

theorem place?_eq_some_iff : place? cells a = some (siblings, i) ↔
    ∃ p, siblings = children cells p ∧ (children cells p)[i]? = some a := by
  constructor
  · intro hplace
    simp only [place?, Option.bind_eq_bind, Option.pure_def, Option.bind_eq_some_iff,
      Option.some.injEq, Prod.mk.injEq] at hplace
    obtain ⟨p, -, j, hfind, rfl, rfl⟩ := hplace
    obtain ⟨hj, hget, -⟩ := List.findIdx?_eq_some_iff_getElem.mp hfind
    refine ⟨p, rfl, ?_⟩
    rw [List.getElem?_eq_getElem hj, beq_iff_eq.mp hget]
  · rintro ⟨p, rfl, ha⟩
    exact h.place?_of_getElem? ha

theorem laterSiblings_of_getElem? (ha : (children cells p)[i]? = some a) :
    laterSiblings cells a = (children cells p).drop (i + 1) := by
  rw [laterSiblings, h.place?_of_getElem? ha]

theorem nextSibling_eq_some_iff : nextSibling cells a = some b ↔
    ∃ p i, (children cells p)[i]? = some a ∧ (children cells p)[i + 1]? = some b := by
  constructor
  · intro hnext
    unfold nextSibling laterSiblings at hnext
    split at hnext
    · rename_i siblings i hplace
      obtain ⟨p, rfl, ha⟩ := h.place?_eq_some_iff.mp hplace
      exact ⟨p, i, ha, by rwa [List.head?_drop] at hnext⟩
    · cases hnext
  · rintro ⟨p, i, ha, hb⟩
    rw [nextSibling, h.laterSiblings_of_getElem? ha, List.head?_drop, hb]

theorem prevSibling_eq_some_iff : prevSibling cells b = some a ↔
    ∃ p i, (children cells p)[i]? = some a ∧ (children cells p)[i + 1]? = some b := by
  constructor
  · intro hprev
    unfold prevSibling at hprev
    split at hprev
    · rename_i siblings i hplace
      obtain ⟨p, rfl, hb⟩ := h.place?_eq_some_iff.mp hplace
      exact ⟨p, i, hprev, hb⟩
    · cases hprev
  · rintro ⟨p, i, ha, hb⟩
    rw [prevSibling, h.place?_of_getElem? hb]
    exact ha

theorem nextSibling_iff_prevSibling : nextSibling cells a = some b ↔ prevSibling cells b = some a :=
  h.nextSibling_eq_some_iff.trans h.prevSibling_eq_some_iff.symm

section Split
variable {earlier later : List Nat} (hsplit : children cells p = earlier ++ a :: later)
include hsplit

theorem place?_of_split : place? cells a = some (children cells p, earlier.length) := by
  apply h.place?_of_getElem?
  rw [hsplit, List.getElem?_append_right (Nat.le_refl _), Nat.sub_self]
  rfl

theorem laterSiblings_of_split : laterSiblings cells a = later := by
  rw [laterSiblings, h.place?_of_split hsplit, hsplit]
  simp

theorem prevSibling_of_split : prevSibling cells a = earlier.getLast? := by
  rw [prevSibling, h.place?_of_split hsplit, hsplit]
  rcases List.eq_nil_or_concat earlier with rfl | ⟨first, b, rfl⟩
  · rfl
  · simp

end Split

theorem exists_split (ha : parent? cells a = some p) :
    ∃ earlier, children cells p = earlier ++ a :: laterSiblings cells a := by
  obtain ⟨earlier, later, hsplit⟩ := List.append_of_mem (h.mem_iff.mpr ha)
  exact ⟨earlier, h.laterSiblings_of_split hsplit ▸ hsplit⟩

/-- A node is in one place only. -/
theorem getElem?_unique {q j : Nat} (hi : (children cells p)[i]? = some a)
    (hj : (children cells q)[j]? = some a) : p = q ∧ i = j := by
  have heq := (h.place?_of_getElem? hi).symm.trans (h.place?_of_getElem? hj)
  have hparent : parent? cells a = some p := h.mem_iff.mp (List.mem_of_getElem? hi)
  have hparent' : parent? cells a = some q := h.mem_iff.mp (List.mem_of_getElem? hj)
  exact ⟨Option.some.inj (hparent.symm.trans hparent'), (Prod.mk.inj (Option.some.inj heq)).2⟩

theorem firstChild_eq_some_iff :
    firstChild cells p = some a ↔ a ∈ children cells p ∧ prevSibling cells a = none := by
  rw [firstChild, List.head?_eq_getElem?]
  constructor
  · intro hfirst
    refine ⟨List.mem_of_getElem? hfirst, Option.eq_none_iff_forall_ne_some.mpr fun b hprev => ?_⟩
    obtain ⟨q, i, -, ha⟩ := h.prevSibling_eq_some_iff.mp hprev
    exact absurd (h.getElem?_unique hfirst ha).2 (Nat.zero_ne_add_one i)
  · rintro ⟨hmem, hprev⟩
    obtain ⟨i, hi⟩ := List.mem_iff_getElem?.mp hmem
    cases i with
    | zero => exact hi
    | succ i =>
      obtain ⟨hlt, -⟩ := List.getElem?_eq_some_iff.mp hi
      have hbefore := List.getElem?_eq_getElem (Nat.lt_of_succ_lt hlt)
      rw [h.prevSibling_eq_some_iff.mpr ⟨p, i, hbefore, hi⟩] at hprev
      cases hprev

theorem lastChild_eq_some_iff :
    lastChild cells p = some a ↔ a ∈ children cells p ∧ nextSibling cells a = none := by
  rw [lastChild, List.getLast?_eq_getElem?]
  constructor
  · intro hlast
    refine ⟨List.mem_of_getElem? hlast, Option.eq_none_iff_forall_ne_some.mpr fun b hnext => ?_⟩
    obtain ⟨q, i, ha, hb⟩ := h.nextSibling_eq_some_iff.mp hnext
    obtain ⟨rfl, rfl⟩ := h.getElem?_unique hlast ha
    obtain ⟨hlt, -⟩ := List.getElem?_eq_some_iff.mp hb
    omega
  · rintro ⟨hmem, hnext⟩
    obtain ⟨i, hi⟩ := List.mem_iff_getElem?.mp hmem
    obtain ⟨hlt, -⟩ := List.getElem?_eq_some_iff.mp hi
    have hend : ¬ i + 1 < (children cells p).length := by
      intro hlt'
      rw [h.nextSibling_eq_some_iff.mpr ⟨p, i, hi, List.getElem?_eq_getElem hlt'⟩] at hnext
      cases hnext
    have hplace : (children cells p).length - 1 = i := by omega
    rw [hplace, hi]

end IsTree

end Arena

end ParseLog
