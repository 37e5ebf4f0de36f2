/-!
# Finite sets as ascending lists

A set is the strictly ascending list of its elements, so two sets are equal exactly when their
lists are. Main statements: membership in a set built by insertion and in an intersection, and that
sets with the same elements are equal.
-/

namespace ParseLog
set_option autoImplicit false

structure SortedSet (α : Type) [Ord α] where
  toList : List α
  ascending : toList.Pairwise fun a b => compare a b = .lt
  deriving DecidableEq

namespace SortedSet
variable {α β : Type} [Ord α] [Ord β]

theorem ext_toList {s t : SortedSet α} (h : s.toList = t.toList) : s = t := by
  cases s; cases t; cases h; rfl

def empty : SortedSet α := ⟨[], .nil⟩

instance : EmptyCollection (SortedSet α) := ⟨empty⟩

instance : Membership α (SortedSet α) := ⟨fun s a => a ∈ s.toList⟩

theorem mem_iff {a : α} {s : SortedSet α} : a ∈ s ↔ a ∈ s.toList := Iff.rfl

instance [DecidableEq α] (a : α) (s : SortedSet α) : Decidable (a ∈ s) :=
  inferInstanceAs (Decidable (a ∈ s.toList))

@[simp] theorem not_mem_empty (a : α) : a ∉ (∅ : SortedSet α) := List.not_mem_nil

def filter (s : SortedSet α) (p : α → Bool) : SortedSet α :=
  ⟨s.toList.filter p, s.ascending.filter p⟩

def size (s : SortedSet α) : Nat := s.toList.length

/-- The elements common to both sets, picked from the smaller one. -/
def inter [DecidableEq α] (s t : SortedSet α) : SortedSet α :=
  if s.size ≤ t.size then s.filter (· ∈ t) else t.filter (· ∈ s)

@[simp] theorem mem_inter [DecidableEq α] {a : α} {s t : SortedSet α} :
    a ∈ s.inter t ↔ a ∈ s ∧ a ∈ t := by
  unfold inter
  split <;> simp [filter, mem_iff, and_comm]

/-- Puts `a` into an ascending list, unless an equal element is there already. -/
def insertSorted (a : α) : List α → List α
  | [] => [a]
  | b :: l =>
    match compare a b with
    | .lt => a :: b :: l
    | .eq => b :: l
    | .gt => b :: insertSorted a l

theorem mem_of_mem_insertSorted {a c : α} {l : List α} (h : c ∈ insertSorted a l) :
    c = a ∨ c ∈ l := by
  induction l with
  | nil => simpa [insertSorted] using h
  | cons b l ih =>
    unfold insertSorted at h
    split at h
    · simpa using h
    · exact .inr h
    · rcases List.mem_cons.1 h with rfl | h
      · simp
      · rcases ih h with h | h <;> simp [h]

theorem mem_insertSorted [Std.LawfulEqOrd α] {a c : α} {l : List α} :
    c ∈ insertSorted a l ↔ c = a ∨ c ∈ l := by
  refine ⟨mem_of_mem_insertSorted, ?_⟩
  induction l with
  | nil => simp [insertSorted]
  | cons b l ih =>
    unfold insertSorted
    split
    · exact List.mem_cons.2
    · rename_i heq
      have := Std.LawfulEqOrd.eq_of_compare heq
      subst this
      rintro (rfl | h) <;> simp [*]
    · intro h
      simp only [List.mem_cons] at h ⊢
      grind

variable [Std.TransOrd α]

theorem insertSorted_ascending {a : α} {l : List α}
    (h : l.Pairwise fun a b => compare a b = .lt) :
    (insertSorted a l).Pairwise fun a b => compare a b = .lt := by
  induction l with
  | nil => simp [insertSorted]
  | cons b l ih =>
    have hb := List.pairwise_cons.1 h
    unfold insertSorted
    split
    · rename_i hlt
      refine List.pairwise_cons.2 ⟨fun c hc => ?_, h⟩
      rcases List.mem_cons.1 hc with rfl | hc
      · exact hlt
      · exact Std.TransCmp.lt_trans hlt (hb.1 c hc)
    · exact h
    · rename_i hgt
      refine List.pairwise_cons.2 ⟨fun c hc => ?_, ih hb.2⟩
      rcases mem_of_mem_insertSorted hc with rfl | hc
      · exact Std.OrientedCmp.lt_of_gt hgt
      · exact hb.1 c hc

def insert (s : SortedSet α) (a : α) : SortedSet α :=
  ⟨insertSorted a s.toList, insertSorted_ascending s.ascending⟩

def ofList (l : List α) : SortedSet α := l.foldl insert ∅

theorem not_lt_self (a : α) : compare a a ≠ .lt := by
  simp [Std.ReflCmp.compare_self]

theorem eq_of_ascending_of_mem_iff {l m : List α}
    (hl : l.Pairwise fun a b => compare a b = .lt) (hm : m.Pairwise fun a b => compare a b = .lt)
    (h : ∀ a, a ∈ l ↔ a ∈ m) : l = m := by
  induction l generalizing m with
  | nil =>
    cases m with
    | nil => rfl
    | cons b m => exact absurd ((h b).2 (by simp)) List.not_mem_nil
  | cons a l ih =>
    cases m with
    | nil => exact absurd ((h a).1 (by simp)) List.not_mem_nil
    | cons b m =>
      have hal := List.pairwise_cons.1 hl
      have hbm := List.pairwise_cons.1 hm
      have hab : a = b := by
        rcases List.mem_cons.1 ((h a).1 (by simp)) with hab | ham
        · exact hab
        rcases List.mem_cons.1 ((h b).2 (by simp)) with hba | hbl
        · exact hba.symm
        exact absurd (Std.TransCmp.lt_trans (hal.1 b hbl) (hbm.1 a ham)) (not_lt_self a)
      subst hab
      congr 1
      refine ih hal.2 hbm.2 fun c => ?_
      have hc := h c
      simp only [List.mem_cons] at hc
      constructor
      · intro hcl
        rcases hc.1 (.inr hcl) with rfl | hcm
        · exact absurd (hal.1 c hcl) (not_lt_self c)
        · exact hcm
      · intro hcm
        rcases hc.2 (.inr hcm) with rfl | hcl
        · exact absurd (hbm.1 c hcm) (not_lt_self c)
        · exact hcl

/-- Sets with the same elements are equal. -/
theorem ext_mem {s t : SortedSet α} (h : ∀ a, a ∈ s ↔ a ∈ t) : s = t :=
  ext_toList (eq_of_ascending_of_mem_iff s.ascending t.ascending h)

variable [Std.LawfulEqOrd α]

@[simp] theorem mem_insert {a c : α} {s : SortedSet α} : c ∈ s.insert a ↔ c = a ∨ c ∈ s :=
  mem_insertSorted

theorem mem_foldl_insert {c : α} {l : List α} {s : SortedSet α} :
    c ∈ l.foldl insert s ↔ c ∈ s ∨ c ∈ l := by
  induction l generalizing s with
  | nil => simp
  | cons a l ih => simp only [List.foldl_cons, ih, mem_insert, List.mem_cons]; grind

@[simp] theorem mem_ofList {c : α} {l : List α} : c ∈ ofList l ↔ c ∈ l := by
  simp [ofList, mem_foldl_insert]

end SortedSet

end ParseLog
