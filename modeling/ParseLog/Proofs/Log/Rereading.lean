import ParseLog.Proofs.Forest.Survivors
import ParseLog.Proofs.Log.Reduced
/-!
# Reading a compact log

A variable reads the same in a compact log, unless its last value is buried: then the compact log
has no value of it.
-/

namespace ParseLog
set_option autoImplicit false

section Values
variable {v : Variable}

theorem Event.sets_coalesce? {last next merged : Event} (h : last.coalesce? next = some merged) :
    merged.sets v = next.sets v := by
  obtain ⟨c, d, rfl, rfl, rfl⟩ | ⟨x, y, rfl, rfl, -, rfl⟩ := coalesce?_cases h
  · rfl
  · rfl

namespace Log

section Absorbed
variable {l : Log} {a : Value}

theorem value_mem_absorbAll {es : List Event} (h : .value a ∈ (l.absorbAll es).recent) :
    .value a ∈ es ∨ .value a ∈ l.recent := by
  induction es generalizing l with
  | nil => exact .inr h
  | cons e es ih =>
    rcases ih h with hmem | hmem
    · exact .inl (List.mem_cons_of_mem e hmem)
    · rcases mem_absorb rfl hmem with rfl | hmem
      · exact .inl List.mem_cons_self
      · exact .inr hmem

end Absorbed

theorem not_sets_absorbAll {l : Log} {es : List Event} (hl : ∀ x ∈ l.recent, x.sets v = false)
    (hes : ∀ e ∈ es, e.sets v = false) : ∀ x ∈ (l.absorbAll es).recent, x.sets v = false := by
  intro x hx
  apply Bool.eq_false_iff.mpr
  intro hsets
  obtain ⟨a, rfl, -⟩ := Event.sets_iff.mp hsets
  rcases value_mem_absorbAll hx with hmem | hmem
  · cases hsets.symm.trans (hes _ hmem)
  · cases hsets.symm.trans (hl _ hmem)

theorem findInScope_eq_none {l : Log} {delimits : Bracket → Bool}
    (h : ∀ x ∈ l.recent, x.sets v = false) : l.findInScope delimits (·.sets v) = none :=
  lookBack_eq_none h 0

end Log

theorem Forest.scopeSide?_keptBody {f : Forest} (hf : f.IsGrown) {outer : List Frame} :
    ∀ x ∈ keptBody outer f, x.scopeSide? (·.delimits v) ≠ some .right := by
  induction f generalizing outer with
  | nil =>
    intro x hx
    cases hx
  | leaf e later ih =>
    intro x hx
    cases hf with
    | leaf hevent hlater =>
      rcases mem_keptBody_leaf hx with hx | ⟨rfl, -⟩
      · exact ih hlater x hx
      · rw [scopeSide?_of_not_bracket hevent]
        nofun
  | region left body right later ihb ihl =>
    intro x hx
    cases hf with
    | region hside hbody hlater =>
      rcases mem_keptBody_region.mp hx with ⟨hopen, -⟩ | hx | hx
      · cases hopen
      · exact ihb hbody.isGrown x hx
      · exact ihl hlater x hx
    | opened hside hbody =>
      rcases mem_keptBody_region.mp hx with ⟨-, rfl⟩ | hx | hx
      · exact scopeSide?_ne_right hside
      · exact ihb hbody x hx
      · cases hx

/-- Coalescing aside, a search in a compact log is one in what is kept of the forest. -/
theorem Log.lookBack_compact (f : Forest) (depth : Nat) :
    lookBack (·.delimits v) (·.sets v) depth (absorbAll ∅ f.compactEvents).recent =
      lookBack (·.delimits v) (·.sets v) depth (f.keptBody []).reverse := by
  rw [lookBack_absorbAll v f.compactEvents (fun _ => rfl), recent_appendAll,
    Forest.compactEvents_eq]
  exact congrArg _ (List.append_nil _)

theorem Log.findInScope_compact {f : Forest} (hf : f.IsGrown) :
    (absorbAll ∅ f.compactEvents).findInScope (·.delimits v) (·.sets v) =
      (lastStop (·.delimits v) (·.sets v) (f.keptBody [])).bind (Event.sought (·.delimits v)) := by
  unfold findInScope
  rw [lookBack_compact, ← List.append_nil (f.keptBody []).reverse,
    lookBack_reverse_append (Forest.scopeSide?_keptBody hf)]
  cases lastStop (·.delimits v) (·.sets v) (f.keptBody []) <;> rfl

end Values

/-- A variable reads the same in a compact log, and no value of it is left if the last one is
buried. -/
theorem Log.binding_compact {l : Log} {f : Forest} (hf : l.forest = .ok f) (v : Variable) :
    ∃ c, l.compact = .ok c ∧
      (f.lastValue v).bind Node.leaf? = (l.toList.filter (·.sets v)).getLast? ∧
      (¬ f.Buries v → c.binding v = l.binding v) ∧
      (f.Buries v → (∀ e ∈ c.toList, e.sets v = false) ∧ c.binding v = .ok none) := by
  have hgrown := Forest.isGrown_ofEvents hf
  refine ⟨_, compact_eq_ok_iff.mpr ⟨f, hf, rfl⟩, Forest.leaf?_lastValue hf v, ?_, ?_⟩
  · intro hburies
    have hopen : ∀ around, f.aroundLast v [] = some around → scopeOpen v around = true := by
      intro around haround
      cases hclosed : scopeOpen v around with
      | true => rfl
      | false => exact absurd (Forest.buries_iff.mpr ⟨around, haround, hclosed⟩) hburies
    unfold binding
    rw [findInScope_compact hgrown, Forest.lastStop_keptBody_eq hgrown rfl hopen,
      findInScope_eq (fun b => b.delimits_other v) hf]
  · intro hburies
    obtain ⟨around, haround, hclosed⟩ := Forest.buries_iff.mp hburies
    have hkept : ∀ x ∈ (absorbAll ∅ f.compactEvents).recent, x.sets v = false :=
      not_sets_absorbAll (by simp [EmptyCollection.emptyCollection, empty])
        (Forest.not_sets_of_buried hgrown rfl haround hclosed)
    constructor
    · intro e he
      exact hkept e (List.mem_reverse.mp he)
    · unfold binding
      rw [findInScope_eq_none hkept]

/-! ### A value shadowed in a scope that has closed, and one of another variable in that scope -/

namespace Shadowed

def level : Variable := ⟨⟨"level", by decide +kernel⟩, .single .int⟩

def value (n : Int64) : Event := .value (.unchecked level.name .int (.int n))

def scope : Bracket := ⟨.left, .scope level⟩

def title : Variable := ⟨⟨"title", by decide +kernel⟩, .single .text⟩

def heading : Value := .unchecked title.name .text (.text "Contents")

def log : Log :=
  Log.ofList [.bracket scope, value 1, .bracket scope, value 2, .value heading, .bracket scope.other]

def forest : Forest :=
  .region scope (.leaf (value 1)
    (.region scope (.leaf (value 2) (.leaf (.value heading) .nil)) (some scope.other) .nil)) none .nil

theorem not_buries_title : ¬ forest.Buries title := by
  rintro ⟨n, frame, hlast, hscope, -⟩
  obtain rfl := Option.some.inj hlast
  cases hscope

end Shadowed

theorem Log.binding_compact_shadowed :
    Shadowed.log.forest = .ok Shadowed.forest ∧ Shadowed.forest.Buries Shadowed.level ∧
      ¬ Shadowed.forest.Buries Shadowed.title ∧
      ∃ c, Shadowed.log.compact = .ok c ∧ (∀ e ∈ c.toList, e.sets Shadowed.level = false) ∧
        c.binding Shadowed.level = .ok none ∧
        c.binding Shadowed.title = .ok (some Shadowed.heading) := by
  have hforest : Shadowed.log.forest = .ok Shadowed.forest := rfl
  have hburies : Shadowed.forest.Buries Shadowed.level := ⟨_, _, rfl, rfl, rfl⟩
  have hheading : Shadowed.log.binding Shadowed.title = .ok (some Shadowed.heading) := rfl
  obtain ⟨c, hc, -, -, hburied⟩ := Log.binding_compact hforest Shadowed.level
  obtain ⟨c', hc', -, hkept, -⟩ := Log.binding_compact hforest Shadowed.title
  obtain rfl : c = c' := Except.ok.inj (hc.symm.trans hc')
  obtain ⟨hunset, hnone⟩ := hburied hburies
  exact ⟨hforest, hburies, Shadowed.not_buries_title, c, hc, hunset, hnone,
    (hkept Shadowed.not_buries_title).trans hheading⟩

end ParseLog
