import ParseLog.Proofs.Forest.Extents
import ParseLog.Proofs.Log.Rereading
/-!
# What a search has in sight

A search is a lookup in lexical scopes. In sight is what no closed scope encloses and no open scope
begins after; the search finds the last wanted event in sight.
-/

namespace ParseLog
set_option autoImplicit false

/-- Whether a wanted event stands at the place in sight of the head: it is no bracket of a scope, no
closed scope encloses it, and no open scope has its left bracket after it. -/
structure InSight (scopes : Region → Bool) (wanted : Event → Bool) (es : List Event)
    (regions : List Extent) (place : Nat) (e : Event) : Prop where
  placed : es[place]? = some e
  wanted : wanted e = true
  noBracket : ∀ b, e = .bracket b → scopes b.region = false
  notEnclosed : ∀ r ∈ regions, scopes r.left.region = true → ∀ stop, r.stop = some stop →
    ¬ (r.start < place ∧ place < stop)
  notBefore : ∀ r ∈ regions, scopes r.left.region = true → r.stop = none → r.start ≤ place

/-- Whether the event is the last one in sight. -/
def LastInSight (scopes : Region → Bool) (wanted : Event → Bool) (es : List Event)
    (regions : List Extent) (place : Nat) (e : Event) : Prop :=
  InSight scopes wanted es regions place e ∧
    ∀ other x, InSight scopes wanted es regions other x → other ≤ place

section Sight
variable {scopes : Region → Bool} {wanted : Event → Bool} {f : Forest} {place : Nat} {e : Event}

theorem LastInSight.unique {es : List Event} {regions : List Extent} {place' : Nat} {e' : Event}
    (h : LastInSight scopes wanted es regions place e)
    (h' : LastInSight scopes wanted es regions place' e') : e = e' := by
  obtain rfl : place = place' := Nat.le_antisymm (h'.2 _ _ h.1) (h.2 _ _ h'.1)
  exact Option.some.inj (h.1.placed.symm.trans h'.1.placed)

namespace Forest

theorem mem_uncovered {delimits : Bracket → Bool} {start : Nat} {x : Event × Nat} :
    x ∈ f.uncovered delimits start ↔
      x ∈ f.events.zipIdx start ∧ isCovered delimits (f.extents start) x.2 = false := by
  simp [uncovered]

theorem mem_outside_of_uncovered {delimits : Bracket → Bool} {start : Nat} {x : Event × Nat}
    (hf : f.IsGrown) (hx : x ∈ f.uncovered delimits start) : x.1 ∈ f.outside delimits := by
  rw [← map_fst_uncovered hf]
  exact List.mem_map_of_mem hx

/-- The left bracket of an open region is not covered. -/
theorem uncovered_of_open {delimits : Bracket → Bool} {start : Nat} {r : Extent} (hf : f.IsGrown)
    (hr : r ∈ f.extents start) (hopen : r.stop = none) :
    (.bracket r.left, r.start) ∈ f.uncovered delimits start :=
  mem_uncovered.mpr ⟨(placed_of_mem_extents hf hr).start,
    isCovered_eq_false_iff.mpr fun _ hs _ => covers_start_of_open hf hr hopen hs⟩

/-- A bracket of a scope that is not covered opens the scope. -/
theorem exists_open_of_uncovered {b : Bracket} (hf : f.IsGrown) (hb : scopes b.region = true)
    (h : (.bracket b, place) ∈ f.uncovered (scopes ·.region) 0) :
    ∃ r ∈ f.extents 0, r.left = b ∧ r.start = place ∧ r.stop = none := by
  have hside : b.side = .left := by
    have hright := scopeSide?_outside (fun _ => rfl) hf _ (mem_outside_of_uncovered hf h)
    cases hside : b.side with
    | left => rfl
    | right => exact absurd (scopeSide?_bracket hb hside) hright
  obtain ⟨hplaced, hcovered⟩ := mem_uncovered.mp h
  obtain ⟨r, hr, rfl, rfl⟩ := exists_extent_of_left hf hside hplaced
  refine ⟨r, hr, rfl, rfl, Option.eq_none_iff_forall_ne_some.mpr fun stop hstop => ?_⟩
  have hlt := ((placed_of_mem_extents hf hr).stop stop hstop).1
  have hnot := isCovered_eq_false_iff.mp hcovered r hr hb
  rw [Extent.covers_iff.mpr ⟨stop, hstop, Nat.le_refl _, by omega⟩] at hnot
  cases hnot

end Forest

theorem exists_bracket_of_scopeSide? {delimits : Bracket → Bool} {side : Side}
    (h : e.scopeSide? delimits = some side) : ∃ b, e = .bracket b ∧ delimits b = true := by
  cases e with
  | bracket b =>
    by_cases hb : delimits b = true
    · exact ⟨b, rfl, hb⟩
    · rw [scopeSide?_of_not_delimits (by simpa using hb)] at h
      cases h
  | _ => cases h

theorem InSight.uncovered (hf : f.IsGrown)
    (h : InSight scopes wanted f.events (f.extents 0) place e) :
    (e, place) ∈ f.uncovered (scopes ·.region) 0 := by
  refine Forest.mem_uncovered.mpr ⟨List.mem_zipIdx_iff_getElem?.mpr h.placed,
    isCovered_eq_false_iff.mpr fun r hr hscope => Bool.eq_false_iff.mpr fun hcovers => ?_⟩
  obtain ⟨stop, hstop, hle, hle'⟩ := Extent.covers_iff.mp hcovers
  have hplaced := Forest.placed_of_mem_extents hf hr
  -- At its ends a scope has its own brackets.
  have hends : ∀ b, scopes b.region = true → (.bracket b, place) ∉ f.events.zipIdx 0 := by
    intro b hb hmem
    have heq : e = .bracket b :=
      Option.some.inj (h.placed.symm.trans (List.mem_zipIdx_iff_getElem?.mp hmem))
    cases hb.symm.trans (h.noBracket b heq)
  have hstart : r.start ≠ place := fun heq => hends r.left hscope (heq ▸ hplaced.start)
  have hstop' : stop ≠ place := fun heq => hends r.left.other hscope (heq ▸ (hplaced.stop stop hstop).2)
  exact h.notEnclosed r hr hscope stop hstop ⟨by omega, by omega⟩

theorem inSight_of_uncovered (h : (e, place) ∈ f.uncovered (scopes ·.region) 0)
    (hwanted : wanted e = true) (hside : e.scopeSide? (scopes ·.region) = none)
    (hbefore : ∀ r ∈ f.extents 0, scopes r.left.region = true → r.stop = none → r.start ≤ place) :
    InSight scopes wanted f.events (f.extents 0) place e := by
  obtain ⟨hplaced, hcovered⟩ := Forest.mem_uncovered.mp h
  refine ⟨List.mem_zipIdx_iff_getElem?.mp hplaced, hwanted, ?_, ?_, hbefore⟩
  · rintro b rfl
    apply Bool.eq_false_iff.mpr
    intro hb
    rw [scopeSide?_bracket hb rfl] at hside
    cases hside
  · rintro r hr hscope stop hstop ⟨hlt, hlt'⟩
    have hnot := isCovered_eq_false_iff.mp hcovered r hr hscope
    rw [Extent.covers_iff.mpr ⟨stop, hstop, by omega, by omega⟩] at hnot
    cases hnot

theorem pairwise_placed (es : List Event) (start : Nat) :
    (es.zipIdx start).Pairwise (·.2 < ·.2) := by
  have hplaces := List.pairwise_lt_range' (s := start) (n := es.length)
  rwa [← List.zipIdx_map_snd, List.pairwise_map] at hplaces

/-- The last event at which a search ends, with its place. -/
def Forest.lastPlacedStop (delimits : Bracket → Bool) (wanted : Event → Bool) (f : Forest) :
    Option (Event × Nat) :=
  ((f.uncovered delimits 0).filter (·.1.stops delimits wanted)).getLast?

namespace Forest
variable {delimits : Bracket → Bool} {x : Event × Nat}

theorem map_lastPlacedStop (hf : f.IsGrown) :
    (f.lastPlacedStop delimits wanted).map Prod.fst =
      lastStop delimits wanted (f.outside delimits) := by
  have houtside : (f.uncovered delimits 0).map Prod.fst = f.outside delimits :=
    map_fst_uncovered hf
  rw [lastPlacedStop, lastStop, ← houtside, List.filter_map, List.getLast?_map]
  rfl

theorem lastPlacedStop_eq_none (h : f.lastPlacedStop delimits wanted = none)
    (hx : x ∈ f.uncovered delimits 0) : x.1.stops delimits wanted = false := by
  have hnil := List.getLast?_eq_none_iff.mp h
  simpa using List.filter_eq_nil_iff.mp hnil x hx

theorem lastPlacedStop_eq_some (h : f.lastPlacedStop delimits wanted = some x) :
    x ∈ f.uncovered delimits 0 ∧ x.1.stops delimits wanted = true ∧
      ∀ y ∈ f.uncovered delimits 0, y.1.stops delimits wanted = true → y.2 ≤ x.2 := by
  have hmem := List.mem_filter.mp (List.mem_of_getLast? h)
  obtain ⟨earlier, hearlier⟩ := List.getLast?_eq_some_iff.mp h
  have hsorted : (earlier ++ [x]).Pairwise (·.2 < ·.2) := by
    rw [← hearlier]
    exact (pairwise_placed f.events 0).sublist (List.filter_sublist.trans List.filter_sublist)
  refine ⟨hmem.1, hmem.2, fun y hy hstops => ?_⟩
  have hy' : y ∈ earlier ++ [x] := by
    rw [← hearlier]
    exact List.mem_filter.mpr ⟨hy, hstops⟩
  rcases List.mem_append.mp hy' with hy' | hy'
  · exact Nat.le_of_lt ((List.pairwise_append.mp hsorted).2.2 y hy' x (by simp))
  · obtain rfl := List.mem_singleton.mp hy'
    exact Nat.le_refl _

end Forest

section LastStop
variable (hf : f.IsGrown) {last : Event} {stop : Nat}
  (hlast : f.lastPlacedStop (scopes ·.region) wanted = some (last, stop))
include hf hlast

theorem InSight.le_lastPlacedStop (h : InSight scopes wanted f.events (f.extents 0) place e) :
    place ≤ stop :=
  (Forest.lastPlacedStop_eq_some hlast).2.2 _ (h.uncovered hf) (by simp [Event.stops, h.wanted])

/-- A search that ends at an open scope has nothing in sight: all that is wanted lies before. -/
theorem not_inSight_of_scope {side : Side} (hside : last.scopeSide? (scopes ·.region) = some side) :
    ¬ InSight scopes wanted f.events (f.extents 0) place e := by
  intro h
  obtain ⟨hmem, -, -⟩ := Forest.lastPlacedStop_eq_some hlast
  obtain ⟨b, rfl, hb⟩ := exists_bracket_of_scopeSide? hside
  obtain ⟨r, hr, rfl, rfl, hopen⟩ := Forest.exists_open_of_uncovered hf hb hmem
  have hplace : place = r.start :=
    Nat.le_antisymm (h.le_lastPlacedStop hf hlast) (h.notBefore r hr hb hopen)
  have hplaced : f.events[r.start]? = some (.bracket r.left) :=
    List.mem_zipIdx_iff_getElem?.mp (Forest.mem_uncovered.mp hmem).1
  have he : e = .bracket r.left := Option.some.inj (h.placed.symm.trans (hplace ▸ hplaced))
  cases hb.symm.trans (h.noBracket r.left he)

theorem lastInSight_of_lastPlacedStop (hside : last.scopeSide? (scopes ·.region) = none) :
    LastInSight scopes wanted f.events (f.extents 0) stop last := by
  obtain ⟨hmem, hstops, hmax⟩ := Forest.lastPlacedStop_eq_some hlast
  have hwanted : wanted last = true := by simpa [Event.stops, hside] using hstops
  refine ⟨inSight_of_uncovered hmem hwanted hside fun r hr hscope hopen => ?_, ?_⟩
  · have hstart : (Event.bracket r.left).stops (scopes ·.region) wanted = true := by
      simp [Event.stops, Event.scopeSide?, hscope]
    exact hmax _ (Forest.uncovered_of_open hf hr hopen) hstart
  · exact fun other x h => h.le_lastPlacedStop hf hlast

end LastStop

/-- A search finds the last event in sight, or nothing is in sight. -/
theorem Log.findInScope_cases {l : Log} (hf : l.forest = .ok f) (scopes : Region → Bool)
    (wanted : Event → Bool) :
    (∃ place e, l.findInScope (scopes ·.region) wanted = some e ∧
      LastInSight scopes wanted f.events (f.extents 0) place e) ∨
    (l.findInScope (scopes ·.region) wanted = none ∧
      ∀ place e, ¬ InSight scopes wanted f.events (f.extents 0) place e) := by
  have hgrown : f.IsGrown := Forest.isGrown_ofEvents hf
  have hfind : l.findInScope (scopes ·.region) wanted =
      ((f.lastPlacedStop (scopes ·.region) wanted).map Prod.fst).bind
        (Event.sought (scopes ·.region)) := by
    rw [Forest.map_lastPlacedStop hgrown, findInScope_eq (fun _ => rfl) hf]
  rw [hfind]
  cases hlast : f.lastPlacedStop (scopes ·.region) wanted with
  | none =>
    refine .inr ⟨rfl, fun place e h => ?_⟩
    have hstops := Forest.lastPlacedStop_eq_none hlast (h.uncovered hgrown)
    simp [Event.stops, h.wanted] at hstops
  | some x =>
    obtain ⟨last, stop⟩ := x
    cases hside : last.scopeSide? (scopes ·.region) with
    | some side =>
      exact .inr ⟨by simp [Event.sought, hside],
        fun place e => not_inSight_of_scope hgrown hlast hside⟩
    | none =>
      exact .inl ⟨stop, last, by simp [Event.sought, hside],
        lastInSight_of_lastPlacedStop hgrown hlast hside⟩

section Log
variable {l : Log} (hf : l.forest = .ok f)
include hf

theorem Log.findInScope_eq_some_iff : l.findInScope (scopes ·.region) wanted = some e ↔
    ∃ place, LastInSight scopes wanted f.events (f.extents 0) place e := by
  rcases findInScope_cases hf scopes wanted with ⟨place, x, hfound, hlast⟩ | ⟨hnone, hnot⟩
  · rw [hfound]
    constructor
    · intro hx
      obtain rfl := Option.some.inj hx
      exact ⟨place, hlast⟩
    · rintro ⟨place', hlast'⟩
      rw [hlast.unique hlast']
  · rw [hnone]
    refine ⟨nofun, ?_⟩
    rintro ⟨place, hlast⟩
    exact absurd hlast.1 (hnot place e)

theorem Log.findInScope_eq_none_iff : l.findInScope (scopes ·.region) wanted = none ↔
    ∀ place e, ¬ InSight scopes wanted f.events (f.extents 0) place e := by
  rcases findInScope_cases hf scopes wanted with ⟨place, x, hfound, hlast⟩ | ⟨hnone, hnot⟩
  · rw [hfound]
    exact ⟨nofun, fun hnot => absurd hlast.1 (hnot place x)⟩
  · exact ⟨fun _ => hnot, fun _ => hnone⟩

end Log

end Sight

/-- A search with scopes chosen by region finds the last wanted event in sight, and nothing if and
only if no wanted event is in sight. So a variable has the last of its values that are directly
visible in its innermost open scope. -/
theorem Log.findInScope_lastInSight {l : Log} {f : Forest} (hf : l.forest = .ok f) :
    (∀ r ∈ f.extents 0, r.Placed l.toList.zipIdx) ∧
    (∀ b place, b.side = .left → (.bracket b, place) ∈ l.toList.zipIdx →
      ∃ r ∈ f.extents 0, r.left = b ∧ r.start = place) ∧
    (∀ (scopes : Region → Bool) (wanted : Event → Bool),
      (∀ e, l.findInScope (scopes ·.region) wanted = some e ↔
        ∃ place, LastInSight scopes wanted l.toList (f.extents 0) place e) ∧
      (l.findInScope (scopes ·.region) wanted = none ↔
        ∀ place e, ¬ InSight scopes wanted l.toList (f.extents 0) place e)) ∧
    ∀ v : Variable,
      (∃ place a, LastInSight (· = .scope v) (·.sets v) l.toList (f.extents 0) place (.value a) ∧
        l.binding v = a.recheck.map fun _ => some a) ∨
      ((∀ place e, ¬ InSight (· = .scope v) (·.sets v) l.toList (f.extents 0) place e) ∧
        l.binding v = .ok none) := by
  have hgrown : f.IsGrown := Forest.isGrown_ofEvents hf
  rw [← Forest.events_ofEvents hf]
  refine ⟨fun r hr => Forest.placed_of_mem_extents hgrown hr,
    fun b place hb h => Forest.exists_extent_of_left hgrown hb h,
    fun _ _ => ⟨fun _ => findInScope_eq_some_iff hf, findInScope_eq_none_iff hf⟩, fun v => ?_⟩
  rcases findInScope_cases hf (· = .scope v) (·.sets v) with
    ⟨place, e, hfound, hlast⟩ | ⟨hnone, hnot⟩
  · obtain ⟨a, rfl, -⟩ := Event.sets_iff.mp hlast.1.wanted
    exact .inl ⟨place, a, hlast, binding_of_found hfound⟩
  · exact .inr ⟨hnot, binding_of_not_found hnone⟩

/-! ### A value behind a closed scope of its variable and an open scope of another -/

namespace Nested

def mode : Variable := ⟨⟨"mode", by decide +kernel⟩, .single .text⟩

def inner : Bracket := ⟨.left, .scope mode⟩

def log : Log :=
  Log.ofList [.bracket Shadowed.scope, Shadowed.value 1, .bracket inner, .bracket Shadowed.scope,
    Shadowed.value 2, .bracket Shadowed.scope.other]

def forest : Forest :=
  .region Shadowed.scope (.leaf (Shadowed.value 1) (.region inner (.region Shadowed.scope
    (.leaf (Shadowed.value 2) .nil) (some Shadowed.scope.other) .nil) none .nil)) none .nil

/-- Whether the region is a scope, of whatever variable. -/
def isScope : Region → Bool
  | .scope _ => true
  | _ => false

end Nested

theorem Log.findInScope_lastInSight_nested :
    Nested.log.forest = .ok Nested.forest ∧
      (∃ place, LastInSight (· = .scope Shadowed.level) (·.sets Shadowed.level) Nested.log.toList
        (Nested.forest.extents 0) place (Shadowed.value 1)) ∧
      ∀ place e, ¬ InSight Nested.isScope (·.sets Shadowed.level) Nested.log.toList
        (Nested.forest.extents 0) place e := by
  have hforest : Nested.log.forest = .ok Nested.forest := rfl
  obtain ⟨-, -, hsearch, -⟩ := Log.findInScope_lastInSight hforest
  exact ⟨hforest, ((hsearch _ _).1 _).mp rfl, (hsearch _ _).2.mp rfl⟩

end ParseLog
