import ParseLog.Forest.Growth
/-!
# Grown forests

A forest that has grown from events is open at its right edge only: an open region is the last of
its siblings, and everything before it is closed. Brackets stand at the sides of regions and nowhere
else.
-/

namespace ParseLog
set_option autoImplicit false

namespace Forest

/-- Whether every region in the forest has both its brackets. -/
inductive IsClosed : Forest → Prop where
  | nil : IsClosed nil
  | leaf {e : Event} {later : Forest} (event : e.isBracket = false) (rest : IsClosed later) :
      IsClosed (leaf e later)
  | region {left : Bracket} {body later : Forest} (side : left.side = .left)
      (inside : IsClosed body) (rest : IsClosed later) :
      IsClosed (region left body (some left.other) later)

/-- Whether every region has both its brackets, but for those at the right edge. -/
inductive IsGrown : Forest → Prop where
  | nil : IsGrown nil
  | leaf {e : Event} {later : Forest} (event : e.isBracket = false) (rest : IsGrown later) :
      IsGrown (leaf e later)
  | region {left : Bracket} {body later : Forest} (side : left.side = .left)
      (inside : IsClosed body) (rest : IsGrown later) :
      IsGrown (region left body (some left.other) later)
  | opened {left : Bracket} {body : Forest} (side : left.side = .left) (inside : IsGrown body) :
      IsGrown (region left body none nil)

theorem IsClosed.isGrown {f : Forest} (h : f.IsClosed) : f.IsGrown := by
  induction h with
  | nil => exact .nil
  | leaf hevent _ ih => exact .leaf hevent ih
  | region hside hbody _ _ ih => exact .region hside hbody ih

theorem IsClosed.reverseOnto {f g : Forest} (hg : g.IsClosed) (hf : f.IsClosed) :
    (Forest.reverseOnto f g).IsClosed := by
  induction hg generalizing f with
  | nil => exact hf
  | leaf hevent _ ih => exact ih (.leaf hevent hf)
  | region hside hbody _ _ ih => exact ih (.region hside hbody hf)

theorem IsClosed.reverseOnto_isGrown {f g : Forest} (hg : g.IsClosed) (hf : f.IsGrown) :
    (Forest.reverseOnto f g).IsGrown := by
  induction hg generalizing f with
  | nil => exact hf
  | leaf hevent _ ih => exact ih (.leaf hevent hf)
  | region hside hbody _ _ ih => exact ih (.region hside hbody hf)

theorem IsClosed.reverse {f : Forest} (h : f.IsClosed) : f.reverse.IsClosed := h.reverseOnto .nil

end Forest

/-- Whether an open region starts at a left bracket and has closed siblings before it. -/
def OpenRegion.IsSound (o : OpenRegion) : Prop := o.left.side = .left ∧ o.earlier.IsClosed

namespace Growth

/-- Whether only the regions under construction are open. -/
structure IsSound (g : Growth) : Prop where
  recent : g.recent.IsClosed
  opened : ∀ o ∈ g.opened, o.IsSound

theorem isSound_start : start.IsSound := ⟨.nil, by simp [start]⟩

theorem IsSound.enter {g : Growth} (h : g.IsSound) {b : Bracket} (hb : b.side = .left) :
    (g.enter b).IsSound := by
  refine ⟨.nil, fun o ho => ?_⟩
  rcases List.mem_cons.mp ho with rfl | ho
  · exact ⟨hb, h.recent⟩
  · exact h.opened o ho

theorem leave_eq_ok_iff {g g' : Growth} {b : Bracket} :
    g.leave b = .ok g' ↔ ∃ o outer, g.opened = o :: outer ∧ b = o.left.other ∧
      g' = ⟨.region o.left g.recent.reverse (some b) o.earlier, outer⟩ := by
  unfold leave
  cases g.opened with
  | nil => simp
  | cons o outer =>
    simp only
    by_cases hb : o.left.pairsWith b = true
    · obtain rfl := Bracket.pairsWith_iff.mp hb
      rw [if_pos hb]
      constructor
      · intro h
        exact ⟨o, outer, rfl, rfl, (Except.ok.inj h).symm⟩
      · rintro ⟨o', outer', ho, -, rfl⟩
        cases ho
        rfl
    · rw [if_neg hb]
      constructor
      · intro h
        cases h
      · rintro ⟨o', outer', ho, rfl, -⟩
        cases ho
        exact absurd (Bracket.pairsWith_iff.mpr rfl) hb

theorem IsSound.leave {g g' : Growth} (h : g.IsSound) {b : Bracket} (hleave : g.leave b = .ok g') :
    g'.IsSound := by
  obtain ⟨o, outer, hopened, rfl, rfl⟩ := leave_eq_ok_iff.mp hleave
  have ho : o.IsSound := h.opened o (by simp [hopened])
  refine ⟨.region ho.1 h.recent.reverse ho.2, fun o' ho' => h.opened o' ?_⟩
  rw [hopened]
  exact List.mem_cons_of_mem o ho'

theorem IsSound.step {g g' : Growth} (h : g.IsSound) {e : Event} (hstep : g.step e = .ok g') :
    g'.IsSound := by
  have hleaf : ∀ e : Event, e.isBracket = false → IsSound ⟨.leaf e g.recent, g.opened⟩ :=
    fun e he => ⟨.leaf he h.recent, h.opened⟩
  cases e with
  | bracket b =>
    cases hside : b.side with
    | left =>
      simp only [Growth.step, hside] at hstep
      cases hstep
      exact h.enter hside
    | right =>
      simp only [Growth.step, hside] at hstep
      exact h.leave hstep
  | chunk c => cases hstep; exact hleaf _ rfl
  | value a => cases hstep; exact hleaf _ rfl
  | marker m => cases hstep; exact hleaf _ rfl

theorem IsSound.run {g g' : Growth} (h : g.IsSound) {es : List Event} (hrun : g.run es = .ok g') :
    g'.IsSound := by
  induction es generalizing g with
  | nil =>
    cases hrun
    exact h
  | cons e es ih =>
    simp only [Growth.run, List.foldlM_cons] at hrun
    cases hstep : g.step e with
    | error v => rw [hstep] at hrun; cases hrun
    | ok g'' =>
      rw [hstep] at hrun
      exact ih (h.step hstep) hrun

theorem step_eq_error {g : Growth} {e : Event} {v : Violation} (h : g.step e = .error v) :
    ∃ b, e = .bracket b ∧ v = .strayRight b := by
  cases e with
  | bracket b =>
    refine ⟨b, rfl, ?_⟩
    cases hside : b.side with
    | left =>
      simp only [Growth.step, hside] at h
      cases h
    | right =>
      simp only [Growth.step, hside, leave] at h
      split at h
      · cases h
        rfl
      · split at h <;> cases h
        rfl
  | _ => cases h

theorem run_eq_error {g : Growth} {es : List Event} {v : Violation} (h : g.run es = .error v) :
    ∃ b, v = .strayRight b := by
  induction es generalizing g with
  | nil => cases h
  | cons e es ih =>
    simp only [Growth.run, List.foldlM_cons] at h
    cases hstep : g.step e with
    | ok g' =>
      rw [hstep] at h
      exact ih h
    | error v' =>
      rw [hstep] at h
      cases h
      obtain ⟨b, -, hb⟩ := step_eq_error hstep
      exact ⟨b, hb⟩

theorem isGrown_enclose {recent : Forest} {opened : List OpenRegion}
    (hrecent : recent.reverse.IsGrown) (hopened : ∀ o ∈ opened, o.IsSound) :
    (enclose recent opened).IsGrown := by
  induction opened generalizing recent with
  | nil => exact hrecent
  | cons o outer ih =>
    obtain ⟨ho, houter⟩ := List.forall_mem_cons.mp hopened
    exact ih (ho.2.reverseOnto_isGrown (.opened ho.1 hrecent)) houter

end Growth

theorem Forest.isGrown_ofEvents {es : List Event} {f : Forest} (h : ofEvents es = .ok f) :
    f.IsGrown := by
  unfold ofEvents at h
  cases hrun : Growth.start.run es with
  | error v => rw [hrun] at h; cases h
  | ok g =>
    rw [hrun] at h
    cases h
    have hsound := Growth.isSound_start.run hrun
    exact Growth.isGrown_enclose hsound.recent.reverse.isGrown hsound.opened

theorem Log.forest_eq_error {l : Log} {v : Violation} (h : l.forest = .error v) :
    ∃ b, v = .strayRight b := by
  unfold forest Forest.ofEvents at h
  cases hrun : Growth.start.run l.toList with
  | ok g => rw [hrun] at h; cases h
  | error v' =>
    rw [hrun] at h
    cases h
    exact Growth.run_eq_error hrun

end ParseLog
