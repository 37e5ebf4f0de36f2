import ParseLog.Proofs.Forest.Kept
import ParseLog.Proofs.Forest.LastValue
/-!
# What a search finds among the kept events

What is kept of a body shows a search for a value of `v` the same as the body itself, unless the
last value of `v` is buried in it: then no value of `v` is kept.
-/

namespace ParseLog
set_option autoImplicit false

namespace Forest

variable {v : Variable} {outer : List Frame}

theorem stops_value (a : Value) :
    (Event.value a).stops (·.delimits v) (·.sets v) = a.isOf v := by
  simp [Event.stops, Event.sets, Event.scopeSide?]

theorem stops_bracket (b : Bracket) :
    (Event.bracket b).stops (·.delimits v) (·.sets v) = b.delimits v := by
  by_cases hb : b.delimits v = true <;> simp [Event.stops, Event.sets, Event.scopeSide?, hb]

theorem lastStop_sortByName (values : List Value) :
    lastStop (·.delimits v) (·.sets v) ((sortByName values).map .value) =
      lastStop (·.delimits v) (·.sets v) (values.map .value) := by
  have hfilter : ∀ l : List Value, (l.map Event.value).filter (·.stops (·.delimits v) (·.sets v)) =
      (l.filter (·.isOf v)).map .value := by
    intro l
    rw [List.filter_map]
    congr 1
    exact List.filter_congr fun a _ => stops_value a
  unfold lastStop
  rw [hfilter, hfilter, filter_sortByName]

theorem lastStop_keptBody (f : Forest) :
    lastStop (·.delimits v) (·.sets v) (keptBody outer f) =
      (lastStop (·.delimits v) (·.sets v) (keptEvents outer f)).or
        (lastStop (·.delimits v) (·.sets v) ((liveValues outer f).map .value)) := by
  rw [keptBody, lastStop_append, lastStop_sortByName]

theorem lastStop_keptBody_leaf {e : Event} (he : e.isBracket = false) (later : Forest) :
    lastStop (·.delimits v) (·.sets v) (keptBody outer (leaf e later)) =
      (lastStop (·.delimits v) (·.sets v) (keptBody outer later)).or
        (if e.sets v && isLive v later outer then some e else none) := by
  rw [lastStop_keptBody, lastStop_keptBody, keptEvents_leaf]
  have hstops : e.stops (·.delimits v) (·.sets v) = e.sets v := by
    rw [Event.stops, scopeSide?_of_not_bracket he]
    exact Bool.or_false _
  by_cases hvalue : e.isValue = true
  · cases e <;> simp only [Event.isValue, Bool.false_eq_true] at hvalue
    case value a =>
      have hlive : a.isOf v = true → isLive a.var later outer = isLive v later outer := by
        intro ha
        rw [show a.var = v by simpa [Value.isOf] using ha]
      simp only [Event.isValue, if_true, liveValues]
      by_cases ha : isLive a.var later outer = true
      · rw [if_pos ha, List.map_cons, lastStop_cons, hstops, ← Option.or_assoc]
        congr 1
        by_cases hsets : a.isOf v = true
        · simp [Event.sets, hsets, ← hlive hsets, ha]
        · simp [Event.sets, hsets]
      · rw [if_neg ha]
        by_cases hsets : a.isOf v = true
        · simp [Event.sets, hsets, ← hlive hsets, ha]
        · simp [Event.sets, hsets]
  · have hsets : e.sets v = false := by cases e <;> simp_all [Event.isValue, Event.sets]
    have hlive : liveValues outer (leaf e later) = liveValues outer later := by
      cases e <;> simp_all [Event.isValue, liveValues]
    rw [if_neg hvalue, hlive, lastStop_cons, hstops, hsets]
    simp

theorem lastStop_keptBody_opened (left : Bracket) (body : Forest) :
    lastStop (·.delimits v) (·.sets v) (keptBody outer (region left body none nil)) =
      (lastStop (·.delimits v) (·.sets v) (keptBody (⟨left, none, nil⟩ :: outer) body)).or
        (lastStop (·.delimits v) (·.sets v) [.bracket left]) := by
  have hbody : keptBody outer (region left body none nil) =
      [.bracket left] ++ keptBody (⟨left, none, nil⟩ :: outer) body :=
    keptEvents_opened outer left body
  rw [hbody, lastStop_append]

/-- Live values after a closed region are kept before it, where a search may as well find them: if
there are any, the region has none. -/
theorem lastStop_keptBody_region {left : Bracket} {body : Forest} (hbody : body.IsClosed)
    (right : Bracket) (later : Forest) :
    lastStop (·.delimits v) (·.sets v) (keptBody outer (region left body (some right) later)) =
      (lastStop (·.delimits v) (·.sets v) (keptBody outer later)).or
        (lastStop (·.delimits v) (·.sets v)
          (keptBody (⟨left, some right, later⟩ :: outer) body)) := by
  have hlive :
      liveValues outer (region left body (some right) later) = liveValues outer later := rfl
  rw [lastStop_keptBody, keptEvents_closed, hlive, lastStop_append, lastStop_keptBody (f := later)]
  by_cases hlater : later.sets v = true
  · have hdead : isLive v nil (⟨left, some right, later⟩ :: outer) = false :=
      isLive_frame_dead right (.inr hlater)
    have hnone := lastStop_eq_none_iff.mpr fun x hx => not_stops_of_dead hbody hdead hx
    rw [hnone, Option.or_none, Option.or_none]
  · have hnone :
        lastStop (·.delimits v) (·.sets v) ((liveValues outer later).map .value) = none := by
      apply lastStop_eq_none_iff.mpr
      intro x hx
      obtain ⟨a, ha, rfl⟩ := List.mem_map.mp hx
      rw [stops_value]
      apply Bool.eq_false_iff.mpr
      intro hsets
      exact hlater (sets_of_mem_keptBody (mem_keptBody.mpr (.inl ⟨a, ha, rfl⟩)) hsets)
    rw [hnone, Option.or_none, Option.or_none]

theorem lastStop_outside_isSome {f : Forest} (hf : f.IsGrown) (hsets : f.sets v = true)
    (hopen : ∀ around, f.aroundLast v outer = some around → scopeOpen v around = true) :
    (lastStop (·.delimits v) (·.sets v) (f.outside (·.delimits v))).isSome = true := by
  rw [← aroundLast_isSome f outer] at hsets
  obtain ⟨around, haround⟩ := Option.isSome_iff_exists.mp hsets
  obtain ⟨x, hx, hxsets⟩ := exists_sets_outside hf haround (hopen around haround)
  rw [Option.isSome_iff_ne_none, Ne, lastStop_eq_none_iff]
  intro hall
  have hstops := hall x hx
  simp [Event.stops, hxsets] at hstops

/-- Unless the last value of `v` is buried, what is kept looks the same. -/
theorem lastStop_keptBody_eq {f : Forest} (hf : f.IsGrown) (hlive : isLive v nil outer = true)
    (hopen : ∀ around, f.aroundLast v outer = some around → scopeOpen v around = true) :
    lastStop (·.delimits v) (·.sets v) (keptBody outer f) =
      lastStop (·.delimits v) (·.sets v) (f.outside (·.delimits v)) := by
  induction f generalizing outer with
  | nil => rfl
  | leaf e later ih =>
    cases hf with
    | leaf hevent hlater =>
      have hopen' : ∀ around, later.aroundLast v outer = some around → scopeOpen v around = true :=
        fun around h => hopen around (aroundLast_leaf_of_later h)
      have hstops : e.stops (·.delimits v) (·.sets v) = e.sets v := by
        rw [Event.stops, scopeSide?_of_not_bracket hevent]
        exact Bool.or_false _
      rw [lastStop_keptBody_leaf hevent, ih hlater hlive hopen', outside, lastStop_cons, hstops,
        isLive_eq, hlive, Bool.true_and]
      by_cases hsets : later.sets v = true
      · have hsome := lastStop_outside_isSome hlater hsets hopen'
        rw [Option.or_of_isSome hsome, Option.or_of_isSome hsome]
      · simp [hsets]
  | region left body right later ihb ihl =>
    cases hf with
    | region hside hbody hlater =>
      have hopen' : ∀ around, later.aroundLast v outer = some around → scopeOpen v around = true :=
        fun around h => hopen around (aroundLast_region_of_later h)
      rw [lastStop_keptBody_region hbody, ihl hlater hlive hopen']
      by_cases hsets : later.sets v = true
      · have hsome := lastStop_outside_isSome hlater hsets hopen'
        rw [outside, lastStop_append, Option.or_of_isSome hsome, Option.or_of_isSome hsome]
      · have hsets' : later.sets v = false := by simpa using hsets
        by_cases hleft : left.delimits v = true
        · have hdead : isLive v nil (⟨left, some left.other, later⟩ :: outer) = false :=
            isLive_frame_dead left.other (.inl hleft)
          have hnone := lastStop_eq_none_iff.mpr fun x hx => not_stops_of_dead hbody hdead hx
          rw [hnone, Option.or_none, outside_scope hleft]
        · have hleft' : left.delimits v = false := by simpa using hleft
          have hinner := (isLive_frame_closed left.other hleft' hsets').trans hlive
          -- With no value of `v` behind the region, its body is as live as the place around it.
          have hopen'' : ∀ around, body.aroundLast v (⟨left, some left.other, later⟩ :: outer) =
              some around → scopeOpen v around = true :=
            fun around h => hopen around (aroundLast_region_of_body hsets' h)
          rw [ihb hbody.isGrown hinner hopen'', outside_region hleft', lastStop_cons,
            lastStop_append, lastStop_cons, stops_bracket, stops_bracket, Bracket.delimits_other,
            hleft']
          simp
    | opened hside hbody =>
      have hopen' : ∀ around, body.aroundLast v (⟨left, none, nil⟩ :: outer) = some around →
          scopeOpen v around = true :=
        fun around h => hopen around (aroundLast_region_of_body rfl h)
      rw [lastStop_keptBody_opened, ihb hbody (isLive_frame_opened hlive) hopen', outside_opened]
      exact (lastStop_append [.bracket left] _).symm

theorem not_sets_of_buried {f : Forest} (hf : f.IsGrown) (hlive : isLive v nil outer = true)
    {around : List Frame} (haround : f.aroundLast v outer = some around)
    (hclosed : scopeOpen v around = false) : ∀ x ∈ keptBody outer f, x.sets v = false := by
  have hopen : scopeOpen v outer = true := by
    unfold isLive at hlive
    exact (Bool.and_eq_true_iff.mp hlive).1
  induction f generalizing outer with
  | nil => cases haround
  | leaf e later ih =>
    cases hf with
    | leaf hevent hlater =>
      intro x hx
      rcases Option.or_eq_some_iff.mp haround with hlast | ⟨-, hlast⟩
      · rcases mem_keptBody_leaf hx with hx | ⟨rfl, hvalue⟩
        · exact ih hlater hlive hlast hopen x hx
        · have hsets := sets_of_aroundLast hlast
          apply Bool.eq_false_iff.mpr
          intro hxsets
          have hxlive := hvalue v hxsets
          rw [isLive_eq, hsets] at hxlive
          simp at hxlive
      · split at hlast <;> cases hlast
        cases hopen.symm.trans hclosed
  | region left body right later ihb ihl =>
    intro x hx
    cases hf with
    | region hside hbody hlater =>
      -- A scope of `v`, or a value of `v` behind the region, leaves nothing of `v` in the body.
      have hdead : left.delimits v = true ∨ later.sets v = true →
          x ∈ keptBody (⟨left, some left.other, later⟩ :: outer) body → x.sets v = false := by
        intro h hx
        have hstops := not_stops_of_dead hbody (isLive_frame_dead left.other h) hx
        exact (Bool.or_eq_false_iff.mp hstops).1
      rcases Option.or_eq_some_iff.mp haround with hlast | ⟨hnone, hlast⟩
      · have hsets := sets_of_aroundLast hlast
        rcases mem_keptBody_region.mp hx with ⟨-, rfl⟩ | hx | hx
        · rfl
        · exact hdead (.inr hsets) hx
        · exact ihl hlater hlive hlast hopen x hx
      · have hsets := aroundLast_eq_none_iff.mp hnone
        rcases mem_keptBody_region.mp hx with ⟨-, rfl⟩ | hx | hx
        · rfl
        · by_cases hleft : left.delimits v = true
          · exact hdead (.inl hleft) hx
          · have hleft' : left.delimits v = false := by simpa using hleft
            have hinner := (isLive_frame_closed left.other hleft' hsets).trans hlive
            exact ihb hbody.isGrown hinner hlast (by simpa [scopeOpen, hleft'] using hopen) x hx
        · apply Bool.eq_false_iff.mpr
          intro hxsets
          cases (sets_of_mem_keptBody hx hxsets).symm.trans hsets
    | opened hside hbody =>
      rcases Option.or_eq_some_iff.mp haround with hlast | ⟨-, hlast⟩
      · cases hlast
      · rcases mem_keptBody_region.mp hx with ⟨-, rfl⟩ | hx | hx
        · rfl
        · exact ihb hbody (isLive_frame_opened hlive) hlast (by simp [scopeOpen, hopen]) x hx
        · cases hx

end Forest

end ParseLog
