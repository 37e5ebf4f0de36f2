import Mathlib.Data.List.Basic
import ParseLog.Branches.Merge
/-!
# One turn of a merge

What one turn takes depends on the events in front of the branches only: a chunk if there is one,
else the intersection of a multi-variable's values, else the one event in front of all. A turn fails
only where two branches differ in an event that all have to share.
-/

namespace ParseLog
set_option autoImplicit false

namespace Value

/-- The symbols of a value, none if it holds anything but a set. -/
def symbols (a : Value) : SortedSet Symbol := a.datum.symbols?.getD ∅

theorem datum_eq_symbols {a : Value} (h : a.var.isMulti = true) : a.datum = .symbols a.symbols := by
  have hset := a.set_of_multi h
  unfold symbols
  cases hd : a.datum <;> simp_all [Datum.symbols?]

theorem ext_symbols {a b : Value} (h : a.var.isMulti = true) (hvar : a.var = b.var)
    (hsymbols : ∀ s, s ∈ a.symbols ↔ s ∈ b.symbols) : a = b := by
  have heq : a.symbols = b.symbols := SortedSet.ext_mem hsymbols
  have hdatum : a.datum = b.datum := by
    rw [datum_eq_symbols h, heq, ← datum_eq_symbols (hvar ▸ h)]
  obtain ⟨v, d, hd⟩ := a
  obtain ⟨v', d', hd'⟩ := b
  subst hvar hdatum
  rfl

/-- Whether the event in front of a branch is a value of `v` that holds `s`. -/
def InFront (v : Variable) (s : Symbol) (front : Option Event) : Prop :=
  ∃ b : Value, front = some (.value b) ∧ b.var = v ∧ s ∈ b.symbols

theorem inFront_value {v : Variable} {s : Symbol} {b : Value} :
    InFront v s (some (.value b)) ↔ b.var = v ∧ s ∈ b.symbols := by
  constructor
  · rintro ⟨b', hb', hvar, hs⟩
    obtain rfl : b = b' := by simpa using hb'
    exact ⟨hvar, hs⟩
  · exact fun h => ⟨b, rfl, h⟩

theorem emptied_spec {a : Value} (h : a.var.isMulti = true) (s : Symbol) :
    s ∉ a.emptied.symbols := by
  simp [emptied, Variable.emptySet?, h, symbols, Datum.symbols?]

theorem meetFront_spec {a : Value} (h : a.var.isMulti = true) (front : Option Event) :
    ∃ c, a.meetFront front = .ok c ∧ c.var = a.var ∧
      ∀ s, s ∈ c.symbols ↔ s ∈ a.symbols ∧ InFront a.var s front := by
  have hempty (hno : ∀ b : Value, front = some (.value b) → b.var ≠ a.var) :
      ∀ s, s ∈ a.emptied.symbols ↔ s ∈ a.symbols ∧ InFront a.var s front := by
    intro s
    constructor
    · exact fun hs => absurd hs (emptied_spec h s)
    · rintro ⟨-, b, hb, hvar, -⟩
      exact absurd hvar (hno b hb)
  unfold meetFront
  split
  · rename_i b
    split
    · rename_i hvar
      have hmeet := inter_eq_ok_iff (a := a) (b := b)
        (c := ⟨a.var, .symbols (a.symbols.inter b.symbols), fun _ => rfl⟩)
      refine ⟨_, hmeet.mpr ⟨_, _, datum_eq_symbols h, datum_eq_symbols (hvar ▸ h), h, hvar,
        rfl, rfl⟩, rfl, ?_⟩
      intro s
      rw [inFront_value]
      simp [symbols, Datum.symbols?, hvar]
    · rename_i hvar
      refine ⟨_, rfl, emptied_var a, hempty ?_⟩
      intro b' hb'
      obtain rfl : b = b' := by simpa using hb'
      exact hvar
  · rename_i hno
    exact ⟨_, rfl, emptied_var a, hempty fun b hb => absurd hb (hno b)⟩

/-- Meeting all branches keeps the symbols that are in front of each, and it never fails. -/
theorem foldlM_meetFront_spec {a : Value} (h : a.var.isMulti = true)
    (fronts : List (Option Event)) :
    ∃ c, fronts.foldlM meetFront a = .ok c ∧ c.var = a.var ∧
      ∀ s, s ∈ c.symbols ↔ s ∈ a.symbols ∧ ∀ front ∈ fronts, InFront a.var s front := by
  induction fronts generalizing a with
  | nil => exact ⟨a, rfl, rfl, by simp⟩
  | cons front fronts ih =>
    obtain ⟨b, hb, hbvar, hbmem⟩ := meetFront_spec h front
    obtain ⟨c, hc, hcvar, hcmem⟩ := ih (hbvar ▸ h)
    refine ⟨c, ?_, hcvar.trans hbvar, ?_⟩
    · rw [List.foldlM_cons, hb]
      exact hc
    · intro s
      rw [hcmem, hbmem, hbvar, List.forall_mem_cons, and_assoc]

end Value

/-- Whether the event has to be the same on all branches: all but chunks and values of
multi-variables. -/
def Event.isRigid (e : Event) : Bool := !e.isChunk && e.multiValue?.isNone

theorem Event.isRigid_iff {e : Event} :
    e.isRigid = true ↔ (∀ c, e ≠ .chunk c) ∧ ∀ a, e = .value a → a.var.isMulti = false := by
  cases e <;> simp [isRigid, isChunk, multiValue?]

namespace Pending

def HasChunk (p : Pending) : Prop := ∃ c, some (.chunk c) ∈ p.fronts

/-- Whether a value of the multi-variable `v` is in front of a branch. -/
def Binds (p : Pending) (v : Variable) : Prop :=
  v.isMulti = true ∧ ∃ a : Value, a.var = v ∧ some (.value a) ∈ p.fronts

theorem mem_fronts {p : Pending} {es : List Event} (h : es ∈ p) : es.head? ∈ p.fronts :=
  List.mem_map_of_mem h

theorem step_of_hasChunk {p : Pending} (h : p.HasChunk) :
    ∃ c, some (.chunk c) ∈ p.fronts ∧ p.step = .ok (some (.chunk c, p.advance Event.isChunk)) := by
  obtain ⟨c, hc⟩ := h
  have hsome : (p.fronts.findSome? (·.bind Event.chunk?)).isSome = true :=
    List.findSome?_isSome_iff.mpr ⟨_, hc, rfl⟩
  obtain ⟨e, he⟩ := Option.isSome_iff_exists.mp hsome
  obtain ⟨front, hmem, hfront⟩ := List.exists_of_findSome?_eq_some he
  obtain ⟨e', rfl, he'⟩ := Option.bind_eq_some_iff.mp hfront
  cases e' <;> simp only [Event.chunk?, reduceCtorEq, Option.some.injEq] at he'
  case chunk c' =>
    subst e
    exact ⟨c', hmem, by simp [step, he]⟩

theorem chunk?_eq_none {p : Pending} (h : ¬ p.HasChunk) :
    p.fronts.findSome? (·.bind Event.chunk?) = none := by
  apply List.findSome?_eq_none_iff.mpr
  intro front hfront
  cases front with
  | none => rfl
  | some e =>
    cases e with
    | chunk c => exact absurd ⟨c, hfront⟩ h
    | _ => rfl

theorem step_of_multiValue? {p : Pending} {first : Value} (h : ¬ p.HasChunk)
    (hfirst : p.fronts.findSome? (·.bind Event.multiValue?) = some first) :
    ∃ m : Value, m.var = first.var ∧ p.Binds m.var ∧
      (∀ s, s ∈ m.symbols ↔ ∀ front ∈ p.fronts, Value.InFront m.var s front) ∧
      p.step = .ok (some (.value m, p.advance (·.sets m.var))) := by
  obtain ⟨front, hmem, hfront⟩ := List.exists_of_findSome?_eq_some hfirst
  obtain ⟨e, rfl, he⟩ := Option.bind_eq_some_iff.mp hfront
  cases e <;> simp only [Event.multiValue?, reduceCtorEq] at he
  case value a =>
    split at he
    · rename_i hmulti
      obtain rfl := Option.some.inj he
      obtain ⟨m, hm, hvar, hsymbols⟩ := Value.foldlM_meetFront_spec hmulti p.fronts
      refine ⟨m, hvar, ⟨hvar ▸ hmulti, a, hvar.symm, hmem⟩, ?_, ?_⟩
      · intro s
        rw [hsymbols, hvar]
        constructor
        · exact And.right
        · exact fun hs => ⟨(Value.inFront_value.mp (hs _ hmem)).2, hs⟩
      · simp only [step, chunk?_eq_none h, hfirst, hm]
        rfl
    · cases he

theorem step_of_binds {p : Pending} {v : Variable} (h : ¬ p.HasChunk) (hv : p.Binds v) :
    ∃ m : Value, p.Binds m.var ∧
      (∀ s, s ∈ m.symbols ↔ ∀ front ∈ p.fronts, Value.InFront m.var s front) ∧
      p.step = .ok (some (.value m, p.advance (·.sets m.var))) := by
  obtain ⟨hmulti, a, rfl, hmem⟩ := hv
  have hsome : (p.fronts.findSome? (·.bind Event.multiValue?)).isSome = true :=
    List.findSome?_isSome_iff.mpr ⟨_, hmem, by simp [Event.multiValue?, hmulti]⟩
  obtain ⟨first, hfirst⟩ := Option.isSome_iff_exists.mp hsome
  obtain ⟨m, -, hm⟩ := step_of_multiValue? h hfirst
  exact ⟨m, hm⟩

theorem multiValue?_eq_none {p : Pending} (h : ∀ v, ¬ p.Binds v) :
    p.fronts.findSome? (·.bind Event.multiValue?) = none := by
  apply List.findSome?_eq_none_iff.mpr
  intro front hfront
  cases front with
  | none => rfl
  | some e =>
    cases e with
    | value a =>
      have ha : ¬ a.var.isMulti = true := fun hmulti => h a.var ⟨hmulti, a, rfl, hfront⟩
      simp [Event.multiValue?, ha]
    | _ => rfl

/-- Whether only events that all branches have to share are in front. -/
def Settled (p : Pending) : Prop := ¬ p.HasChunk ∧ ∀ v, ¬ p.Binds v

theorem isRigid_of_settled {p : Pending} (h : p.Settled) {e : Event} (he : some e ∈ p.fronts) :
    e.isRigid = true := by
  apply Event.isRigid_iff.mpr
  constructor
  · rintro c rfl
    exact h.1 ⟨c, he⟩
  · rintro a rfl
    apply Bool.eq_false_iff.mpr
    intro hmulti
    exact h.2 a.var ⟨hmulti, a, rfl, he⟩

theorem step_of_settled {p : Pending} (h : p.Settled) :
    p.step = (sharedFront p.fronts).map fun front => front.map fun e => (e, p.advance (· = e)) := by
  simp only [step, chunk?_eq_none h.1, multiValue?_eq_none h.2]
  cases hshared : sharedFront p.fronts with
  | error err => rfl
  | ok front => cases front <;> rfl

/-- What is in front of all branches, or where two of them differ. -/
theorem sharedFront_cases (fronts : List (Option Event)) :
    (∃ front, sharedFront fronts = .ok front ∧ ∀ f ∈ fronts, f = front) ∨
      ∃ f ∈ fronts, ∃ g ∈ fronts, f ≠ g ∧
        sharedFront fronts = .error
          (.disagreement "Outputs cannot be reconciled" (describeFront f) (describeFront g)) := by
  cases fronts with
  | nil => exact .inl ⟨none, rfl, by simp⟩
  | cons first others =>
    cases hother : others.find? (· ≠ first) with
    | none =>
      have hsame : ∀ f ∈ others, f = first := by simpa using List.find?_eq_none.mp hother
      refine .inl ⟨first, by simp only [sharedFront, hother], ?_⟩
      intro f hf
      rcases List.mem_cons.mp hf with hf | hf
      · exact hf
      · exact hsame f hf
    | some other =>
      have hne : other ≠ first := by simpa using List.find?_some hother
      refine .inr ⟨first, List.mem_cons_self, other, ?_, hne.symm, ?_⟩
      · exact List.mem_cons_of_mem first (List.mem_of_find?_eq_some hother)
      · simp only [sharedFront, hother]

/-- What a turn takes and what it leaves. -/
inductive Turn (p : Pending) : Event → Pending → Prop where
  | chunk {c : Chunk} (front : some (.chunk c) ∈ p.fronts) :
      Turn p (.chunk c) (p.advance Event.isChunk)
  | meet {m : Value} (noChunk : ¬ p.HasChunk) (bound : p.Binds m.var)
      (symbols : ∀ s, s ∈ m.symbols ↔ ∀ front ∈ p.fronts, Value.InFront m.var s front) :
      Turn p (.value m) (p.advance (·.sets m.var))
  | share {e : Event} (settled : p.Settled) (rigid : e.isRigid = true)
      (all : ∀ front ∈ p.fronts, front = some e) (nonempty : p ≠ []) :
      Turn p e (p.advance (· = e))

/-- A turn takes a front off at least one branch. -/
theorem Turn.exists_taken {p q : Pending} {e : Event} (h : p.Turn e q) :
    ∃ taken x, q = p.advance taken ∧ some x ∈ p.fronts ∧ taken x = true := by
  cases h with
  | chunk front => exact ⟨_, _, rfl, front, rfl⟩
  | meet _ bound =>
    obtain ⟨-, a, hvar, ha⟩ := bound
    exact ⟨_, _, rfl, ha, by simp [Event.sets, Value.isOf, hvar]⟩
  | share _ _ all nonempty =>
    obtain ⟨es, hes⟩ := List.exists_mem_of_ne_nil p nonempty
    exact ⟨_, e, rfl, all _ (mem_fronts hes) ▸ mem_fronts hes, by simp⟩

theorem Turn.eq_advance {p q : Pending} {e : Event} (h : p.Turn e q) :
    ∃ taken, q = p.advance taken := by
  obtain ⟨taken, -, hq, -⟩ := h.exists_taken
  exact ⟨taken, hq⟩

/-- A turn takes an event, or the branches are at their ends, or two of them differ. -/
theorem step_cases (p : Pending) :
    (∃ e q, p.step = .ok (some (e, q)) ∧ p.Turn e q) ∨
    (p.step = .ok none ∧ ∀ front ∈ p.fronts, front = none) ∨
    ∃ f ∈ p.fronts, ∃ g ∈ p.fronts, f ≠ g ∧ p.Settled ∧
      p.step = .error
        (.disagreement "Outputs cannot be reconciled" (describeFront f) (describeFront g)) := by
  by_cases hchunk : p.HasChunk
  · obtain ⟨c, hc, hstep⟩ := step_of_hasChunk hchunk
    exact .inl ⟨_, _, hstep, .chunk hc⟩
  by_cases hbinds : ∃ v, p.Binds v
  · obtain ⟨v, hv⟩ := hbinds
    obtain ⟨m, hm, hsymbols, hstep⟩ := step_of_binds hchunk hv
    exact .inl ⟨_, _, hstep, .meet hchunk hm hsymbols⟩
  have hsettled : p.Settled := ⟨hchunk, not_exists.mp hbinds⟩
  have hstep := step_of_settled hsettled
  rcases sharedFront_cases p.fronts with ⟨front, hshared, hall⟩ | ⟨f, hf, g, hg, hne, hshared⟩
  · rw [hshared] at hstep
    cases front with
    | none => exact .inr (.inl ⟨hstep, hall⟩)
    | some e =>
      have hmem : some e ∈ p.fronts := mem_fronts_of_sharedFront hshared
      refine .inl ⟨_, _, hstep, .share hsettled (isRigid_of_settled hsettled hmem) hall ?_⟩
      rintro rfl
      simp [fronts] at hmem
  · rw [hshared] at hstep
    exact .inr (.inr ⟨f, hf, g, hg, hne, hsettled, hstep⟩)

theorem turn_of_step {p q : Pending} {e : Event} (h : p.step = .ok (some (e, q))) : p.Turn e q := by
  rcases step_cases p with ⟨e', q', hstep, hturn⟩ | ⟨hstep, -⟩ | ⟨f, -, g, -, -, -, hstep⟩
  · rw [h] at hstep
    cases hstep
    exact hturn
  · rw [h] at hstep
    cases hstep
  · rw [h] at hstep
    cases hstep

theorem fronts_of_step_none {p : Pending} (h : p.step = .ok none) :
    ∀ front ∈ p.fronts, front = none := by
  rcases step_cases p with ⟨e, q, hstep, -⟩ | ⟨-, hall⟩ | ⟨f, -, g, -, -, -, hstep⟩
  · cases h.symm.trans hstep
  · exact hall
  · cases h.symm.trans hstep

theorem fronts_of_step_error {p : Pending} {err : JoinError} (h : p.step = .error err) :
    ∃ f ∈ p.fronts, ∃ g ∈ p.fronts, f ≠ g ∧ p.Settled ∧
      err = .disagreement "Outputs cannot be reconciled" (describeFront f) (describeFront g) := by
  rcases step_cases p with ⟨e, q, hstep, -⟩ | ⟨hstep, -⟩ | ⟨f, hf, g, hg, hne, hsettled, hstep⟩
  · cases h.symm.trans hstep
  · cases h.symm.trans hstep
  · cases h.symm.trans hstep
    exact ⟨f, hf, g, hg, hne, hsettled, rfl⟩

theorem merge_eq_error {p : Pending} {err : JoinError} (h : p.merge = .error err) :
    ∃ a b, err = .disagreement "Outputs cannot be reconciled" a b := by
  induction p using merge.induct with
  | case1 p err' hstep =>
    rw [merge, hstep] at h
    cases h
    obtain ⟨f, -, g, -, -, -, rfl⟩ := fronts_of_step_error hstep
    exact ⟨_, _, rfl⟩
  | case2 p hstep =>
    rw [merge, hstep] at h
    cases h
  | case3 p e q hstep ih =>
    rw [merge, hstep] at h
    cases hq : q.merge with
    | error err' =>
      simp only [hq, Except.map] at h
      cases h
      exact ih hq
    | ok fs =>
      simp only [hq, Except.map] at h
      cases h

/-- The events that a whole merge takes. -/
inductive Run : Pending → List Event → Prop where
  | done {p : Pending} (stop : p.step = .ok none) : Run p []
  | turn {p q : Pending} {e : Event} {es : List Event} (step : p.step = .ok (some (e, q)))
      (rest : Run q es) : Run p (e :: es)

theorem Run.of_step {p q : Pending} {e : Event} {fs : List Event} (h : p.Run fs)
    (hstep : p.step = .ok (some (e, q))) : ∃ later, fs = e :: later ∧ q.Run later := by
  cases h with
  | done hstop => cases hstop.symm.trans hstep
  | turn hstep' hrest =>
    cases hstep'.symm.trans hstep
    exact ⟨_, rfl, hrest⟩

theorem merge_eq_ok_iff {p : Pending} {es : List Event} : p.merge = .ok es ↔ p.Run es := by
  constructor
  · intro h
    induction p using merge.induct generalizing es with
    | case1 p err hstep =>
      rw [merge, hstep] at h
      cases h
    | case2 p hstep =>
      rw [merge, hstep] at h
      cases h
      exact .done hstep
    | case3 p e q hstep ih =>
      rw [merge, hstep] at h
      cases hq : q.merge with
      | error err => simp only [hq, Except.map] at h; cases h
      | ok fs =>
        simp only [hq, Except.map] at h
        cases h
        exact .turn hstep (ih hq)
  · intro h
    induction h with
    | done hstop => rw [merge, hstop]
    | turn hstep _ ih => rw [merge, hstep]; simp only [ih]; rfl

end Pending

end ParseLog
