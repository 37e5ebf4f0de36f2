import ParseLog.Proofs.Log.Rereading
/-!
# One value of each variable

Of two values of one variable the earlier is dead, for its scope ends or the later one replaces it.
So a compact log has at most one value of each variable.
-/

namespace ParseLog
set_option autoImplicit false

/-- Whether no variable is set more than once. -/
def SingleValued (es : List Event) : Prop := ∀ v, es.countP (·.sets v) ≤ 1

section Lists
variable {es : List Event} {e : Event} {v : Variable}

theorem countP_sets_eq_zero (h : ∀ x ∈ es, x.sets v = false) : es.countP (·.sets v) = 0 := by
  apply List.countP_eq_zero.mpr
  intro x hx hsets
  cases hsets.symm.trans (h x hx)

theorem SingleValued.of_sublist {fs : List Event} (h : SingleValued es) (hfs : fs.Sublist es) :
    SingleValued fs :=
  fun v => Nat.le_trans hfs.countP_le (h v)

theorem SingleValued.of_cons (h : SingleValued (e :: es)) : SingleValued es :=
  h.of_sublist (List.sublist_cons_self e es)

theorem SingleValued.not_sets (h : SingleValued (e :: es)) (he : e.sets v = true) :
    ∀ x ∈ es, x.sets v = false := by
  have hcount := h v
  rw [List.countP_cons, if_pos he] at hcount
  have hzero : es.countP (·.sets v) = 0 := by omega
  intro x hx
  simpa using List.countP_eq_zero.mp hzero x hx

theorem SingleValued.eq_of_var_eq (h : SingleValued es) {a b : Value} (ha : .value a ∈ es)
    (hb : .value b ∈ es) (hvar : a.var = b.var) : a = b := by
  have hsets : (Event.value a).sets b.var = true := by simp [Event.sets, Value.isOf, hvar]
  have hsets' : (Event.value b).sets b.var = true := by simp [Event.sets, Value.isOf]
  induction es with
  | nil => cases ha
  | cons x es ih =>
    rcases List.mem_cons.mp ha with rfl | ha'
    · rcases List.mem_cons.mp hb with heq | hb'
      · exact (Event.value.inj heq).symm
      · cases hsets'.symm.trans (h.not_sets hsets _ hb')
    · rcases List.mem_cons.mp hb with rfl | hb'
      · cases hsets.symm.trans (h.not_sets hsets' _ ha')
      · exact ih h.of_cons ha' hb'

end Lists

namespace Forest

section Counts
variable {v : Variable} {outer : List Frame}

theorem countP_keptBody (p : Event → Bool) (outer : List Frame) (f : Forest) :
    (keptBody outer f).countP p =
      ((liveValues outer f).map Event.value).countP p + (keptEvents outer f).countP p := by
  rw [keptBody, List.countP_append, ((sortByName_perm (liveValues outer f)).map _).countP_eq]

theorem countP_keptBody_eq_zero {f : Forest} (h : f.sets v = false) :
    (keptBody outer f).countP (·.sets v) = 0 := by
  apply countP_sets_eq_zero
  intro x hx
  apply Bool.eq_false_iff.mpr
  intro hsets
  cases h.symm.trans (sets_of_mem_keptBody hx hsets)

theorem countP_keptBody_leaf (e : Event) (later : Forest) :
    (keptBody outer (leaf e later)).countP (·.sets v) =
      (keptBody outer later).countP (·.sets v) +
        if e.sets v && isLive v later outer then 1 else 0 := by
  rw [countP_keptBody, countP_keptBody, keptEvents_leaf]
  cases e with
  | value a =>
    simp only [Event.isValue, if_true, liveValues]
    by_cases hsets : (Event.value a).sets v = true
    · obtain rfl : a.var = v := by simpa [Event.sets, Value.isOf] using hsets
      by_cases hlive : isLive a.var later outer = true
      · simp only [hlive, hsets, if_true, List.map_cons, List.countP_cons, Bool.and_self]
        omega
      · simp only [hlive, Bool.and_false, Bool.false_eq_true, if_false, Nat.add_zero]
    · simp only [hsets, Bool.false_and, Bool.false_eq_true, if_false, Nat.add_zero]
      split
      · rw [List.map_cons, List.countP_cons, if_neg hsets, Nat.add_zero]
      · rfl
  | _ => simp [Event.isValue, Event.sets, liveValues]

theorem countP_keptBody_region (left : Bracket) (body : Forest) (right : Option Bracket)
    (later : Forest) :
    (keptBody outer (region left body right later)).countP (·.sets v) =
      (keptBody (⟨left, right, later⟩ :: outer) body).countP (·.sets v) +
        (keptBody outer later).countP (·.sets v) := by
  have hleft : (if right.isNone then [Event.bracket left] else []).countP (·.sets v) = 0 := by
    apply countP_sets_eq_zero
    intro x hx
    split at hx <;> simp_all [Event.sets]
  rw [countP_keptBody, keptEvents_region, List.countP_append, List.countP_append, hleft,
    countP_keptBody _ outer later]
  simp only [liveValues, keptBody]
  omega

/-- A value in a closed region is dead if its variable is set again after the region. -/
theorem countP_keptBody_dead {left right : Bracket} {body later : Forest} (hbody : body.IsClosed)
    (h : later.sets v = true) :
    (keptBody (⟨left, some right, later⟩ :: outer) body).countP (·.sets v) = 0 := by
  apply countP_sets_eq_zero
  intro x hx
  have hstops := not_stops_of_dead hbody (isLive_frame_dead right (.inr h)) hx
  exact (Bool.or_eq_false_iff.mp hstops).1

theorem countP_keptBody_le {f : Forest} (hf : f.IsGrown) :
    (keptBody outer f).countP (·.sets v) ≤ 1 := by
  induction f generalizing outer with
  | nil => exact Nat.zero_le 1
  | leaf e later ih =>
    cases hf with
    | leaf hevent hlater =>
      rw [countP_keptBody_leaf]
      by_cases hlive : (e.sets v && isLive v later outer) = true
      · have hlater' : later.sets v = false := by
          obtain ⟨-, h⟩ := Bool.and_eq_true_iff.mp hlive
          rw [isLive_eq] at h
          simpa using (Bool.and_eq_true_iff.mp h).2
        simp only [countP_keptBody_eq_zero hlater', hlive, if_true]
        omega
      · rw [if_neg hlive]
        exact ih hlater
  | region left body right later ihb ihl =>
    rw [countP_keptBody_region]
    cases hf with
    | region _ hbody hlater =>
      by_cases hsets : later.sets v = true
      · rw [countP_keptBody_dead hbody hsets, Nat.zero_add]
        exact ihl hlater
      · rw [countP_keptBody_eq_zero (f := later) (by simpa using hsets)]
        exact ihb hbody.isGrown
    | opened _ hbody =>
      rw [countP_keptBody_eq_zero (f := nil) rfl]
      exact ihb hbody

end Counts

end Forest

namespace Log

theorem countP_absorb_le (l : Log) (e : Event) (v : Variable) :
    (l.absorb e).recent.countP (·.sets v) ≤
      l.recent.countP (·.sets v) + [e].countP (·.sets v) := by
  obtain ⟨-, habsorb⟩ | ⟨older, last, merged, rfl, hm, habsorb⟩ := absorb_cases l e
  · rw [habsorb]
    simp only [append, List.countP_cons, List.countP_nil]
    omega
  · have hsets := Event.sets_coalesce? (v := v) hm
    rw [habsorb]
    simp only [append, List.countP_cons, List.countP_nil, hsets]
    omega

theorem countP_absorbAll_le (l : Log) (es : List Event) (v : Variable) :
    (l.absorbAll es).recent.countP (·.sets v) ≤
      l.recent.countP (·.sets v) + es.countP (·.sets v) := by
  induction es generalizing l with
  | nil => exact Nat.le_refl _
  | cons e es ih =>
    have hstep := countP_absorb_le l e v
    have hrest := ih (l.absorb e)
    simp only [absorbAll, List.foldl_cons, List.countP_cons, List.countP_nil] at hstep hrest ⊢
    omega

/-- A compact log has at most one value of each variable. -/
theorem singleValued_compact {l c : Log} (h : l.compact = .ok c) : SingleValued c.toList := by
  obtain ⟨f, hf, rfl⟩ := compact_eq_ok_iff.mp h
  intro v
  have hkept : f.compactEvents.countP (·.sets v) ≤ 1 :=
    Forest.countP_keptBody_le (Forest.isGrown_ofEvents hf)
  have hempty : (∅ : Log).recent.countP (·.sets v) = 0 := rfl
  have habsorbed := countP_absorbAll_le ∅ f.compactEvents v
  rw [toList, List.countP_reverse]
  omega

end Log

end ParseLog
