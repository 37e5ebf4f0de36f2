import ParseLog.Log.Compaction
import ParseLog.Proofs.Forest.Outside
/-!
# What compaction keeps of a body

The live values of a body and everything else in it come out side by side, so what is kept of a body
follows from what is kept of each of its nodes. Within closed regions a value of `v` is kept only if
a value at their end could still be read.
-/

namespace ParseLog
set_option autoImplicit false

theorem insertByName_perm (a : Value) (l : List Value) : (insertByName a l).Perm (a :: l) := by
  induction l with
  | nil => exact .refl _
  | cons b l ih =>
    unfold insertByName
    split
    · exact .refl _
    · exact (ih.cons b).trans (.swap a b l)

theorem sortByName_perm (l : List Value) : (sortByName l).Perm l := by
  induction l with
  | nil => exact .refl _
  | cons a l ih => exact (insertByName_perm a (sortByName l)).trans (ih.cons a)

/-- Values of one variable keep their order. -/
theorem filter_insertByName (v : Variable) (a : Value) (l : List Value) :
    (insertByName a l).filter (·.isOf v) = (a :: l).filter (·.isOf v) := by
  induction l with
  | nil => rfl
  | cons b l ih =>
    unfold insertByName
    split
    · rfl
    · rename_i hle
      have hne : ¬ (a.isOf v = true ∧ b.isOf v = true) := by
        rintro ⟨ha, hb⟩
        have ha' : a.var = v := by simpa [Value.isOf] using ha
        have hb' : b.var = v := by simpa [Value.isOf] using hb
        exact hle (by simp [ha', hb'])
      rw [List.filter_cons, ih, List.filter_cons, List.filter_cons, List.filter_cons]
      by_cases ha : a.isOf v = true
      · have hb : ¬ b.isOf v = true := fun hb => hne ⟨ha, hb⟩
        simp [ha, hb]
      · simp [ha]

theorem filter_sortByName (v : Variable) (l : List Value) :
    (sortByName l).filter (·.isOf v) = l.filter (·.isOf v) := by
  induction l with
  | nil => rfl
  | cons a l ih =>
    have hcons : sortByName (a :: l) = insertByName a (sortByName l) := rfl
    rw [hcons, filter_insertByName, List.filter_cons, ih, List.filter_cons]

section Liveness
variable (v : Variable) (outer : List Frame)

theorem setLater_eq (later : Forest) :
    setLater v later outer = (later.sets v || setLater v .nil outer) := by
  cases outer <;> simp [setLater, Forest.sets]

theorem isLive_eq (later : Forest) :
    isLive v later outer = (isLive v .nil outer && !later.sets v) := by
  unfold isLive
  rw [setLater_eq v outer later, Bool.not_or, Bool.and_assoc, Bool.and_comm (!later.sets v)]

/-- Whether a value at the end of a body can still be read. -/
theorem isLive_frame (left : Bracket) (right : Option Bracket) (later : Forest) :
    isLive v .nil (⟨left, right, later⟩ :: outer) =
      if left.delimits v then right.isNone else isLive v later outer := by
  by_cases h : left.delimits v = true <;> simp [isLive, scopeOpen, setLater, Forest.sets, h]

variable {v outer} {left : Bracket} {later : Forest}

theorem isLive_frame_dead (right : Bracket) (h : left.delimits v = true ∨ later.sets v = true) :
    isLive v .nil (⟨left, some right, later⟩ :: outer) = false := by
  rw [isLive_frame, isLive_eq]
  rcases h with h | h <;> simp [h]

theorem isLive_frame_closed (right : Bracket) (hleft : left.delimits v = false)
    (hlater : later.sets v = false) :
    isLive v .nil (⟨left, some right, later⟩ :: outer) = isLive v .nil outer := by
  rw [isLive_frame, isLive_eq]
  simp [hleft, hlater]

theorem isLive_frame_opened (h : isLive v .nil outer = true) :
    isLive v .nil (⟨left, none, .nil⟩ :: outer) = true := by
  rw [isLive_frame, h]
  exact ite_self true

end Liveness

namespace Forest

/-- What is kept of a body, before events coalesce. -/
def keptBody (outer : List Frame) (f : Forest) : List Event :=
  (sortByName (liveValues outer f)).map Event.value ++ keptEvents outer f

theorem compactEvents_eq (f : Forest) : f.compactEvents = keptBody [] f := rfl

theorem keptEvents_closed (outer : List Frame) (left right : Bracket) (body later : Forest) :
    keptEvents outer (region left body (some right) later) =
      keptBody (⟨left, some right, later⟩ :: outer) body ++ keptEvents outer later := by
  rw [keptEvents_region]
  rfl

theorem keptEvents_opened (outer : List Frame) (left : Bracket) (body : Forest) :
    keptEvents outer (region left body none nil) =
      .bracket left :: keptBody (⟨left, none, nil⟩ :: outer) body := by
  rw [keptEvents_region, keptEvents_nil, List.append_nil]
  rfl

section Members
variable {outer : List Frame} {e x : Event}

theorem mem_keptBody {f : Forest} :
    x ∈ keptBody outer f ↔ (∃ a ∈ liveValues outer f, x = .value a) ∨ x ∈ keptEvents outer f := by
  simp [keptBody, (sortByName_perm _).mem_iff, eq_comm]

theorem mem_keptBody_leaf {later : Forest} (h : x ∈ keptBody outer (leaf e later)) :
    x ∈ keptBody outer later ∨ x = e ∧ ∀ v, e.sets v = true → isLive v later outer = true := by
  rw [mem_keptBody] at h ⊢
  cases e with
  | value a =>
    simp only [liveValues, keptEvents_leaf, Event.isValue, if_true] at h
    split at h
    · rename_i hlive
      rcases h with ⟨b, hb, rfl⟩ | h
      · rcases List.mem_cons.mp hb with rfl | hb
        · refine .inr ⟨rfl, fun v hv => ?_⟩
          obtain rfl : b.var = v := by simpa [Event.sets, Value.isOf] using hv
          exact hlive
        · exact .inl (.inl ⟨b, hb, rfl⟩)
      · exact .inl (.inr h)
    · exact .inl h
  | _ =>
    rcases h with h | h
    · exact .inl (.inl h)
    · rcases List.mem_cons.mp h with rfl | h
      · refine .inr ⟨rfl, fun v hv => ?_⟩
        cases hv
      · exact .inl (.inr h)

theorem mem_keptBody_region {left : Bracket} {body later : Forest} {right : Option Bracket} :
    x ∈ keptBody outer (region left body right later) ↔ (right = none ∧ x = .bracket left) ∨
      x ∈ keptBody (⟨left, right, later⟩ :: outer) body ∨ x ∈ keptBody outer later := by
  have hlive : liveValues outer (region left body right later) = liveValues outer later := rfl
  have hleft : x ∈ (if right.isNone then [Event.bracket left] else []) ↔
      right = none ∧ x = .bracket left := by
    cases right <;> simp
  rw [mem_keptBody, hlive, keptEvents_region, List.mem_append, hleft, List.mem_append,
    mem_keptBody (f := later), or_left_comm]
  exact or_congr_right or_left_comm

/-- Compaction makes up no values. -/
theorem value_mem_keptBody {a : Value} {f : Forest} (h : .value a ∈ keptBody outer f) :
    .value a ∈ f.events := by
  induction f generalizing outer with
  | nil => cases h
  | leaf e later ih =>
    rcases mem_keptBody_leaf h with hmem | ⟨rfl, -⟩
    · exact List.mem_cons_of_mem e (ih hmem)
    · exact List.mem_cons_self
  | region left body right later ihb ihl =>
    rcases mem_keptBody_region.mp h with ⟨-, heq⟩ | hmem | hmem
    · cases heq
    · exact List.mem_cons_of_mem _ (List.mem_append_left _ (ihb hmem))
    · exact List.mem_cons_of_mem _ (List.mem_append_right _ (List.mem_append_right _ (ihl hmem)))

theorem sets_of_mem_keptBody {v : Variable} {f : Forest} (hx : x ∈ keptBody outer f)
    (hsets : x.sets v = true) : f.sets v = true := by
  obtain ⟨a, rfl, -⟩ := Event.sets_iff.mp hsets
  exact sets_iff.mpr ⟨_, value_mem_keptBody hx, hsets⟩

/-- Of closed regions within which no value can be read any more, no value is kept. -/
theorem not_stops_of_dead {v : Variable} {f : Forest} (hf : f.IsClosed)
    (hdead : isLive v .nil outer = false) (hx : x ∈ keptBody outer f) :
    x.stops (·.delimits v) (·.sets v) = false := by
  induction hf generalizing outer with
  | nil => simp [keptBody, liveValues, sortByName] at hx
  | @leaf e later hevent _ ih =>
    rcases mem_keptBody_leaf hx with hx | ⟨rfl, hlive⟩
    · exact ih hdead hx
    · rw [Event.stops, scopeSide?_of_not_bracket hevent, Option.isSome_none, Bool.or_false]
      apply Bool.eq_false_iff.mpr
      intro hsets
      have hlive' := hlive v hsets
      rw [isLive_eq, hdead] at hlive'
      cases hlive'
  | @region left body later _ _ _ ihb ihl =>
    rcases mem_keptBody_region.mp hx with ⟨hopen, -⟩ | hx | hx
    · cases hopen
    · refine ihb ?_ hx
      rw [isLive_frame, isLive_eq, hdead]
      simp
    · exact ihl hdead hx

end Members

end Forest

end ParseLog
