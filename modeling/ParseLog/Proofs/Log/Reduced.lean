import Mathlib.Data.List.Chain
import ParseLog.Log.Compaction
/-!
# Reduced lists of events

A list of events is reduced if no two neighbours coalesce. Absorbing gives a reduced log, and it
adds a reduced list as it is.
-/

namespace ParseLog
set_option autoImplicit false

/-- No two neighbours coalesce. -/
def Reduced (es : List Event) : Prop := es.IsChain fun a b => a.coalesce? b = none

/-- What stands for two events coalesces with no more than the first of them did. -/
theorem Event.coalesce?_merged {x a b m : Event} (hm : a.coalesce? b = some m)
    (hx : x.coalesce? a = none) : x.coalesce? m = none := by
  obtain ⟨c, d, rfl, rfl, rfl⟩ | ⟨u, v, rfl, rfl, hvar, rfl⟩ := coalesce?_cases hm
  · cases x <;> simp_all [coalesce?]
  · cases x <;> simp_all [coalesce?]

/-- All but chunks stand for the later of two events that coalesce. -/
theorem Event.eq_of_coalesce? {a b m : Event} (hm : a.coalesce? b = some m)
    (hchunk : m.isChunk = false) : b = m := by
  obtain ⟨c, d, rfl, rfl, rfl⟩ | ⟨u, v, rfl, rfl, -, rfl⟩ := coalesce?_cases hm
  · cases hchunk
  · rfl

theorem Reduced.of_cons {e : Event} {es : List Event} (h : Reduced (e :: es)) : Reduced es :=
  List.IsChain.tail h

theorem reduced_cons {e : Event} {es : List Event} (hes : Reduced es)
    (he : ∀ e' ∈ es.head?, e.coalesce? e' = none) : Reduced (e :: es) :=
  List.isChain_cons.mpr ⟨he, hes⟩

namespace Log

theorem mem_absorb {l : Log} {x e : Event} (hx : x.isChunk = false)
    (h : x ∈ (l.absorb e).recent) : e = x ∨ x ∈ l.recent := by
  obtain ⟨-, habsorb⟩ | ⟨older, last, merged, rfl, hm, habsorb⟩ := absorb_cases l e
  · rw [habsorb] at h
    exact (List.mem_cons.mp h).imp Eq.symm id
  · rw [habsorb] at h
    rcases List.mem_cons.mp h with rfl | hmem
    · exact .inl (Event.eq_of_coalesce? hm hx)
    · exact .inr (List.mem_cons_of_mem last hmem)

theorem absorbAll_eq_appendAll {l : Log} {es : List Event} (h : Reduced (l.toList ++ es)) :
    l.absorbAll es = l.appendAll es := by
  induction es generalizing l with
  | nil => rfl
  | cons e es ih =>
    have hlast : ∀ a ∈ l.recent.head?, a.coalesce? e = none := by
      intro a ha
      have hchain := (List.isChain_append.mp h).2.2
      apply hchain a _ e rfl
      simpa [toList] using ha
    have hnext : Reduced ((l.append e).toList ++ es) := by simpa using h
    have hstep := ih hnext
    simp only [absorbAll, appendAll, List.foldl_cons] at hstep ⊢
    rw [absorb_eq_append hlast]
    exact hstep

theorem absorbAll_empty {es : List Event} (h : Reduced es) : absorbAll ∅ es = ofList es :=
  absorbAll_eq_appendAll h

theorem reduced_absorb {l : Log} (h : Reduced l.toList) (e : Event) :
    Reduced (l.absorb e).toList := by
  obtain ⟨hlast, habsorb⟩ | ⟨older, a, m, rfl, hm, habsorb⟩ := absorb_cases l e
  · rw [habsorb, toList_append]
    apply List.isChain_append.mpr
    refine ⟨h, .singleton e, ?_⟩
    intro x hx y hy
    obtain rfl : e = y := by simpa using hy
    apply hlast x
    simpa [toList] using hx
  · rw [toList_append] at h
    obtain ⟨holder, -, hseam⟩ := List.isChain_append.mp h
    rw [habsorb, toList_append]
    apply List.isChain_append.mpr
    refine ⟨holder, .singleton m, ?_⟩
    intro x hx y hy
    obtain rfl : m = y := by simpa using hy
    exact Event.coalesce?_merged hm (hseam x hx a rfl)

theorem reduced_empty : Reduced (∅ : Log).toList := .nil

theorem reduced_absorbAll {l : Log} (h : Reduced l.toList) (es : List Event) :
    Reduced (l.absorbAll es).toList := by
  induction es generalizing l with
  | nil => exact h
  | cons e es ih => exact ih (reduced_absorb h e)

theorem reduced_compact {l c : Log} (h : l.compact = .ok c) : Reduced c.toList := by
  obtain ⟨f, -, rfl⟩ := compact_eq_ok_iff.mp h
  exact reduced_absorbAll reduced_empty f.compactEvents

end Log

end ParseLog
