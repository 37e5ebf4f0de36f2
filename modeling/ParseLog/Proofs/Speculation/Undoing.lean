import ParseLog.Proofs.Speculation.Conservation
/-!
# Undoing an attempt

An attempt begins with a marker. It may do anything above the marker but compact the log, and it
resolves only speculation begun in its own course. Nothing below the marker plays a part in it, so
rolling back to the marker gives back the log as it was and all the text consumed since.
-/

namespace ParseLog
set_option autoImplicit false

/-- The events of a log beyond as many as `start` has. -/
def Log.beyond (l start : Log) : List Event := l.toList.drop start.length

/-- Whether the action keeps to what has been recorded since `start`. -/
def Action.StaysBeyond (start l : Log) : Action → Prop
  | .rollback m | .commit m => .marker m ∈ l.beyond start
  | .commitRound => .marker .loop ∈ l.beyond start
  | .compact => False
  | _ => True

instance (start l : Log) : (a : Action) → Decidable (a.StaysBeyond start l)
  | .rollback m | .commit m => inferInstanceAs (Decidable (.marker m ∈ l.beyond start))
  | .commitRound => inferInstanceAs (Decidable (.marker .loop ∈ l.beyond start))
  | .compact => .isFalse id
  | .eat _ | .eatAbsorbing _ | .append _ _ | .absorb _ _ | .mark _ => .isTrue trivial

/-- Whether the actions, taken in order, keep to what has been recorded since `start`. -/
def Parse.StaysBeyond (start : Log) (p : Parse) : List Action → Prop
  | [] => True
  | a :: as => a.StaysBeyond start p.log ∧ StaysBeyond start ((p.act? a).getD p) as

instance Parse.decidableStaysBeyond (start : Log) :
    (p : Parse) → (as : List Action) → Decidable (p.StaysBeyond start as)
  | _, [] => .isTrue trivial
  | p, a :: as =>
    have := decidableStaysBeyond start ((p.act? a).getD p) as
    inferInstanceAs (Decidable (a.StaysBeyond start p.log ∧ _))

theorem Log.beyond_onto (l start : Log) : (l.onto start).beyond start = l.toList := by
  have hlength : start.length = start.toList.length := by simp [Log.length, Log.toList]
  rw [beyond, toList_onto, hlength, List.drop_left]

namespace Parse

/-- The parse with the log `base` below its own. -/
def onto (p : Parse) (base : Log) : Parse := ⟨p.log.onto base, p.input⟩

theorem mem_of_mem_beyond {p : Parse} {start : Log} {e : Event}
    (h : e ∈ (p.onto start).log.beyond start) : e ∈ p.log.recent := by
  have hbeyond : (p.onto start).log.beyond start = p.log.toList := Log.beyond_onto p.log start
  rw [hbeyond] at h
  exact List.mem_reverse.mp h

section Mark
variable {p : Parse} {base : Log} {m : Marker}

theorem act?_commit_onto_mark {k : Marker} (hk : .marker k ∈ p.log.recent) :
    (p.onto (base.mark m)).act? (.commit k) =
      (p.act? (.commit k)).map (·.onto (base.mark m)) := by
  simp only [act?, onto, Log.commit_onto_mark hk, toOption_map, Option.map_map]
  rfl

/-- An action that stays above a marker does not notice what is below. -/
theorem act?_onto_mark {a : Action}
    (h : a.StaysBeyond (base.mark m) (p.onto (base.mark m)).log) :
    (p.onto (base.mark m)).act? a = (p.act? a).map (·.onto (base.mark m)) := by
  cases a with
  | eat c =>
    simp only [act?, Option.map_map]
    rfl
  | eatAbsorbing c =>
    simp only [act?, onto, Log.absorb_onto_mark, Option.map_map]
    rfl
  | append e he => rfl
  | absorb e he =>
    simp only [act?, onto, Log.absorb_onto_mark]
    rfl
  | mark k => rfl
  | rollback k =>
    simp only [act?, onto, Log.rollback_onto (mem_of_mem_beyond h), toOption_map, Option.map_map]
    rfl
  | commit k => exact act?_commit_onto_mark (mem_of_mem_beyond h)
  | commitRound =>
    rw [act?_commitRound, act?_commitRound]
    exact act?_commit_onto_mark (mem_of_mem_beyond h)
  | compact => cases h

/-- What stays above a marker is a parse of its own. -/
theorem run_onto_mark {as : List Action}
    (h : (p.onto (base.mark m)).StaysBeyond (base.mark m) as) :
    (p.onto (base.mark m)).run as = (p.run as).onto (base.mark m) := by
  induction as generalizing p with
  | nil => rfl
  | cons a as ih =>
    obtain ⟨ha, has⟩ := h
    rw [act?_onto_mark ha] at has
    rw [run_cons, run_cons, act?_onto_mark ha]
    cases hq : p.act? a with
    | none =>
      rw [hq] at has
      exact ih has
    | some q =>
      rw [hq] at has
      exact ih has

end Mark

theorem exists_onto_mark {p : Parse} {m : Marker} {as : List Action}
    (h : (p.mark m).StaysBeyond (p.mark m).log as) :
    ∃ inner : Parse, (p.mark m).run as = inner.onto (p.mark m).log ∧
      inner.total = p.input.rest ∧ inner.input.complete = p.input.complete := by
  let inner : Parse := ⟨∅, p.input⟩
  have htotal : inner.total = p.input.rest := String.empty_append
  refine ⟨inner.run as, run_onto_mark (p := inner) h, ?_⟩
  exact run_induction (P := fun q => q.total = p.input.rest ∧ q.input.complete = p.input.complete)
    conserved_act? ⟨htotal, rfl⟩ as

/-- Rolling back an attempt gives back the log, and all the text consumed since. -/
theorem rollback_undoes_attempt {p q : Parse} {m : Marker} {as : List Action}
    (hstays : (p.mark m).StaysBeyond (p.mark m).log as) (hrun : (p.mark m).run as = q)
    (hresolved : .marker m ∉ q.log.beyond (p.mark m).log) :
    ∃ restored, q.log.rollback m q.input = .ok (p.log, restored) ∧
      restored.rest = p.input.rest ∧ restored.complete = p.input.complete := by
  obtain ⟨inner, habove, htotal, hcomplete⟩ := exists_onto_mark hstays
  obtain rfl := hrun.symm.trans habove
  have hnew : .marker m ∉ inner.log.recent := by
    intro hmem
    apply hresolved
    rw [onto, Log.beyond_onto]
    exact List.mem_reverse.mpr hmem
  exact ⟨_, Log.rollback_onto_mark hnew p.log inner.input, htotal, hcomplete⟩

end Parse

/-! ### An attempt with others inside it -/

namespace Nested

def start : Parse := ⟨Log.ofList [.chunk (.plain "x")], .ofString "&lt;b!"⟩

def actions : List Action :=
  [.eat ⟨"<", "&lt;"⟩, .mark .loop, .eat (.plain "b"), .mark .branch, .eat (.plain "!"),
    .rollback .branch, .mark .lookahead, .commit .loop]

def last : Parse :=
  ⟨Log.ofList [.chunk (.plain "x"), .marker .branch, .chunk ⟨"<b", "&lt;b"⟩, .marker .lookahead],
    ⟨"", "!", true⟩⟩

end Nested

/-- Text comes back across a kept round, an alternative given up and a lookahead left behind. -/
theorem Parse.rollback_undoes_nested :
    (Nested.start.mark .branch).StaysBeyond (Nested.start.mark .branch).log Nested.actions ∧
      (Nested.start.mark .branch).run Nested.actions = Nested.last ∧
      .marker .branch ∉ Nested.last.log.beyond (Nested.start.mark .branch).log ∧
      ∃ restored, Nested.last.log.rollback .branch Nested.last.input =
        .ok (Nested.start.log, restored) ∧
          restored.rest = "&lt;b!" ∧ restored.complete = true := by
  have hstays : (Nested.start.mark .branch).StaysBeyond (Nested.start.mark .branch).log
    Nested.actions := by decide
  have hrun : (Nested.start.mark .branch).run Nested.actions = Nested.last := by rfl
  have hresolved : .marker .branch ∉ Nested.last.log.beyond (Nested.start.mark .branch).log := by
    decide
  exact ⟨hstays, hrun, hresolved, Parse.rollback_undoes_attempt hstays hrun hresolved⟩

end ParseLog
