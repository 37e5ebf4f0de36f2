import ParseLog.Log.Lookup
/-!
# Steps of a search

One equation for each kind of event that a search meets. A search for a value does not notice events
that it passes over, nor whether the events it meets have coalesced.
-/

namespace ParseLog.Log
set_option autoImplicit false

variable {delimits : Bracket → Bool} {wanted : Event → Bool} {e : Event} {older : List Event}

@[simp] theorem lookBack_nil (depth : Nat) : lookBack delimits wanted depth [] = none := by
  cases depth <;> rfl

theorem lookBack_found (hside : e.scopeSide? delimits = none) (he : wanted e = true) :
    lookBack delimits wanted 0 (e :: older) = some e := by
  simp [lookBack, hside, he]

theorem lookBack_passed (hside : e.scopeSide? delimits = none) (he : wanted e = false)
    (depth : Nat) :
    lookBack delimits wanted depth (e :: older) = lookBack delimits wanted depth older := by
  cases depth <;> simp [lookBack, hside, he]

theorem lookBack_inside (hside : e.scopeSide? delimits = none) (depth : Nat) :
    lookBack delimits wanted (depth + 1) (e :: older) =
      lookBack delimits wanted (depth + 1) older := by
  simp [lookBack, hside]

theorem lookBack_left_zero (hside : e.scopeSide? delimits = some .left) :
    lookBack delimits wanted 0 (e :: older) = none := by
  simp [lookBack, hside]

theorem lookBack_left_succ (hside : e.scopeSide? delimits = some .left) (depth : Nat) :
    lookBack delimits wanted (depth + 1) (e :: older) = lookBack delimits wanted depth older := by
  simp [lookBack, hside]

theorem lookBack_right (hside : e.scopeSide? delimits = some .right) (depth : Nat) :
    lookBack delimits wanted depth (e :: older) = lookBack delimits wanted (depth + 1) older := by
  cases depth <;> simp [lookBack, hside]

/-- At an event a search fails, ends, or goes on at some depth, whatever is older. -/
theorem lookBack_cons (e : Event) (depth : Nat) :
    (∀ older, lookBack delimits wanted depth (e :: older) = none) ∨
    (wanted e = true ∧ ∀ older, lookBack delimits wanted depth (e :: older) = some e) ∨
    ∃ depth', ∀ older,
      lookBack delimits wanted depth (e :: older) = lookBack delimits wanted depth' older := by
  cases hside : e.scopeSide? delimits with
  | some side =>
    cases side with
    | right => exact .inr (.inr ⟨depth + 1, fun _ => lookBack_right hside depth⟩)
    | left =>
      cases depth with
      | zero => exact .inl fun _ => lookBack_left_zero hside
      | succ depth => exact .inr (.inr ⟨depth, fun _ => lookBack_left_succ hside depth⟩)
  | none =>
    cases depth with
    | zero =>
      by_cases he : wanted e = true
      · exact .inr (.inl ⟨he, fun _ => lookBack_found hside he⟩)
      · exact .inr (.inr ⟨0, fun _ => lookBack_passed hside (by simpa using he) 0⟩)
    | succ depth => exact .inr (.inr ⟨depth + 1, fun _ => lookBack_inside hside depth⟩)

/-- Logs that a search cannot tell apart stay so under one more event. -/
theorem lookBack_cons_congr {older' : List Event}
    (h : ∀ depth, lookBack delimits wanted depth older = lookBack delimits wanted depth older')
    (depth : Nat) :
    lookBack delimits wanted depth (e :: older) = lookBack delimits wanted depth (e :: older') := by
  rcases lookBack_cons e depth with hfail | ⟨-, hend⟩ | ⟨depth', hgo⟩
  · rw [hfail, hfail]
  · rw [hend, hend]
  · rw [hgo, hgo, h]

theorem lookBack_append_congr {older' : List Event} (es : List Event)
    (h : ∀ depth, lookBack delimits wanted depth older = lookBack delimits wanted depth older')
    (depth : Nat) :
    lookBack delimits wanted depth (es ++ older) =
      lookBack delimits wanted depth (es ++ older') := by
  induction es generalizing depth with
  | nil => exact h depth
  | cons e es ih => exact lookBack_cons_congr ih depth

theorem lookBack_filter {keep : Event → Bool}
    (hkeep : ∀ e, keep e = false → e.scopeSide? delimits = none ∧ wanted e = false)
    (es : List Event) (depth : Nat) :
    lookBack delimits wanted depth (es.filter keep) = lookBack delimits wanted depth es := by
  induction es generalizing depth with
  | nil => rfl
  | cons e older ih =>
    by_cases he : keep e = true
    · rw [List.filter_cons_of_pos he]
      exact lookBack_cons_congr ih depth
    · obtain ⟨hside, hwanted⟩ := hkeep e (by simpa using he)
      rw [List.filter_cons_of_neg he, lookBack_passed hside hwanted, ih]

theorem lookBack_eq_some {depth : Nat} {es : List Event} {x : Event}
    (h : lookBack delimits wanted depth es = some x) : x ∈ es ∧ wanted x = true := by
  induction es generalizing depth with
  | nil => simp at h
  | cons e older ih =>
    rcases lookBack_cons e depth with hfail | ⟨he, hend⟩ | ⟨depth', hgo⟩
    · rw [hfail] at h
      cases h
    · rw [hend] at h
      obtain rfl := Option.some.inj h
      exact ⟨List.mem_cons_self, he⟩
    · rw [hgo] at h
      obtain ⟨hx, hwanted⟩ := ih h
      exact ⟨List.mem_cons_of_mem e hx, hwanted⟩

theorem lookBack_eq_none {es : List Event} (h : ∀ x ∈ es, wanted x = false) (depth : Nat) :
    lookBack delimits wanted depth es = none := by
  apply Option.eq_none_iff_forall_not_mem.mpr
  intro x hx
  obtain ⟨hmem, hwanted⟩ := lookBack_eq_some hx
  cases hwanted.symm.trans (h x hmem)

section Coalescing
variable (v : Variable)

theorem lookBack_coalesce? {last next merged : Event} (h : last.coalesce? next = some merged)
    (depth : Nat) :
    lookBack delimits (·.sets v) depth (merged :: older) =
      lookBack delimits (·.sets v) depth (next :: last :: older) := by
  obtain ⟨c, d, rfl, rfl, rfl⟩ | ⟨a, b, rfl, rfl, hvar, rfl⟩ := Event.coalesce?_cases h
  · rw [lookBack_passed rfl rfl, lookBack_passed rfl rfl, lookBack_passed rfl rfl]
  · have hsets : (Event.value a).sets v = (Event.value b).sets v := by
      simp [Event.sets, Value.isOf, hvar]
    by_cases hb : (Event.value b).sets v = true
    · cases depth with
      | zero => rw [lookBack_found rfl hb, lookBack_found rfl hb]
      | succ depth => rw [lookBack_inside rfl, lookBack_inside rfl, lookBack_inside rfl]
    · have hb' : (Event.value b).sets v = false := by simpa using hb
      rw [lookBack_passed rfl hb', lookBack_passed rfl hb', lookBack_passed rfl (hsets.trans hb')]

theorem lookBack_absorb (l : Log) (e : Event) (depth : Nat) :
    lookBack delimits (·.sets v) depth (l.absorb e).recent =
      lookBack delimits (·.sets v) depth (l.append e).recent := by
  obtain ⟨-, habsorb⟩ | ⟨older, last, merged, rfl, hm, habsorb⟩ := l.absorb_cases e
  · rw [habsorb]
  · rw [habsorb]
    exact lookBack_coalesce? v hm depth

theorem lookBack_absorbAll {l l' : Log} (es : List Event)
    (h : ∀ depth, lookBack delimits (·.sets v) depth l.recent =
      lookBack delimits (·.sets v) depth l'.recent) (depth : Nat) :
    lookBack delimits (·.sets v) depth (l.absorbAll es).recent =
      lookBack delimits (·.sets v) depth (l'.appendAll es).recent := by
  induction es generalizing l l' with
  | nil => exact h depth
  | cons e es ih =>
    apply ih
    intro depth
    rw [lookBack_absorb]
    exact lookBack_cons_congr h depth

end Coalescing

section Binding
variable {l : Log} {v : Variable}

theorem binding_of_found {a : Value}
    (h : l.findInScope (·.delimits v) (·.sets v) = some (.value a)) :
    l.binding v = a.recheck.map fun _ => some a := by
  rw [binding, h]

theorem binding_of_not_found (h : l.findInScope (·.delimits v) (·.sets v) = none) :
    l.binding v = .ok none := by
  rw [binding, h]

end Binding

end ParseLog.Log
