import ParseLog.Proofs.Forest.Bracketing
import ParseLog.Proofs.Forest.Scoping
import ParseLog.Proofs.Log.Rereading
/-!
# Going on from a compact log

Which events can follow a log depends on its open left brackets only, and a compact log keeps those
and no other brackets. A search for a scoped variable finds the same in both logs at every depth, so
the variable reads the same whatever follows.
-/

namespace ParseLog
set_option autoImplicit false

namespace Growth

theorem step_congr {g g' : Growth} (h : g.lefts = g'.lefts) (e : Event) :
    (∃ k k', g.step e = .ok k ∧ g'.step e = .ok k' ∧ k.lefts = k'.lefts) ∨
      ∃ v, g.step e = .error v ∧ g'.step e = .error v := by
  by_cases hstray : ∃ b, e = .bracket b ∧ b.isStray g.lefts = true
  · obtain ⟨b, rfl, hb⟩ := hstray
    exact .inr ⟨.strayRight b, step_stray hb, step_stray (h ▸ hb)⟩
  · have he : ∀ b, e = .bracket b → b.isStray g.lefts = false := by
      intro b hb
      apply Bool.eq_false_iff.mpr
      intro hs
      exact hstray ⟨b, hb, hs⟩
    obtain ⟨k, hk, hlefts⟩ := step_nest he
    obtain ⟨k', hk', hlefts'⟩ := step_nest (h ▸ he)
    refine .inl ⟨k, k', hk, hk', ?_⟩
    rw [hlefts, hlefts', h]

/-- Forests with the same open regions grow alike, whatever else is in them. -/
theorem run_congr {g g' : Growth} (h : g.lefts = g'.lefts) (es : List Event) :
    (∃ k k', g.run es = .ok k ∧ g'.run es = .ok k' ∧ k.lefts = k'.lefts) ∨
      ∃ v, g.run es = .error v ∧ g'.run es = .error v := by
  induction es generalizing g g' with
  | nil => exact .inl ⟨g, g', rfl, rfl, h⟩
  | cons e es ih =>
    simp only [run, List.foldlM_cons]
    rcases step_congr h e with ⟨k, k', hk, hk', hlefts⟩ | ⟨v, hv, hv'⟩
    · rw [hk, hk']
      exact ih hlefts
    · rw [hv, hv']
      exact .inr ⟨v, rfl, rfl⟩

end Growth

namespace Log

theorem forest_appendAll {l : Log} {g : Growth} (hg : Growth.start.run l.toList = .ok g)
    (es : List Event) : (l.appendAll es).forest = (g.run es).map Growth.forest := by
  rw [forest, Forest.ofEvents, toList_appendAll, Growth.run_append, hg]
  rfl

theorem forest_appendAll_congr {l l' : Log} (hl : WellBracketed l.toList)
    (hl' : WellBracketed l'.toList) (h : openLefts l.toList = openLefts l'.toList)
    (es : List Event) :
    ((∃ f, (l.appendAll es).forest = .ok f) ↔ ∃ f, (l'.appendAll es).forest = .ok f) ∧
      ∀ v, (l.appendAll es).forest = .error v ↔ (l'.appendAll es).forest = .error v := by
  obtain ⟨g, hg, hlefts⟩ := Growth.run_of_wellBracketed hl
  obtain ⟨g', hg', hlefts'⟩ := Growth.run_of_wellBracketed hl'
  rw [forest_appendAll hg, forest_appendAll hg']
  rcases Growth.run_congr (hlefts.trans (h.trans hlefts'.symm)) es with
    ⟨k, k', hk, hk', -⟩ | ⟨v, hv, hv'⟩
  · simp [hk, hk', Except.map]
  · simp [hv, hv', Except.map]

end Log

section Brackets

theorem openLefts_filter (es : List Event) :
    openLefts (es.filter Event.isBracket) = openLefts es := by
  induction es using List.reverseRecOn with
  | nil => rfl
  | append_singleton es e ih =>
    rw [List.filter_append, openLefts_concat]
    cases e with
    | bracket b =>
      rw [List.filter_cons_of_pos rfl, List.filter_nil, openLefts_concat, ih]
    | _ =>
      rw [List.filter_cons_of_neg Bool.false_ne_true, List.filter_nil, List.append_nil, ih]
      rfl

theorem openLefts_lefts {bs : List Bracket} (h : ∀ b ∈ bs, b.side = .left) :
    openLefts (bs.map .bracket) = bs.reverse := by
  induction bs using List.reverseRecOn with
  | nil => rfl
  | append_singleton bs b ih =>
    obtain ⟨hbs, hb⟩ := List.forall_mem_append.mp h
    have hside : b.side = .left := hb b (List.mem_singleton_self b)
    rw [List.map_append, List.map_singleton, openLefts_concat, ih hbs]
    simp [nest, hside]

theorem wellBracketed_of_lefts {es : List Event} {bs : List Bracket}
    (hes : es.filter Event.isBracket = bs.map .bracket) (h : ∀ b ∈ bs, b.side = .left) :
    WellBracketed es := by
  intro before b after hsplit
  have hb : .bracket b ∈ bs.map Event.bracket := by
    rw [← hes, hsplit]
    simp [Event.isBracket]
  obtain ⟨b', hmem, heq⟩ := List.mem_map.mp hb
  obtain rfl := Event.bracket.inj heq
  simp [Bracket.isStray, h b' hmem]

theorem Event.isBracket_coalesce? {last next merged : Event}
    (h : last.coalesce? next = some merged) :
    last.isBracket = false ∧ next.isBracket = false ∧ merged.isBracket = false := by
  obtain ⟨c, d, rfl, rfl, rfl⟩ | ⟨x, y, rfl, rfl, -, rfl⟩ := coalesce?_cases h
  · exact ⟨rfl, rfl, rfl⟩
  · exact ⟨rfl, rfl, rfl⟩

theorem Log.filter_isBracket_absorb (l : Log) (e : Event) :
    (l.absorb e).toList.filter Event.isBracket =
      l.toList.filter Event.isBracket ++ [e].filter Event.isBracket := by
  obtain ⟨-, habsorb⟩ | ⟨older, last, merged, rfl, hm, habsorb⟩ := absorb_cases l e
  · rw [habsorb, toList_append, List.filter_append]
  · obtain ⟨hlast, he, hmerged⟩ := Event.isBracket_coalesce? hm
    simp [habsorb, hlast, he, hmerged]

theorem Log.filter_isBracket_absorbAll (l : Log) (es : List Event) :
    (l.absorbAll es).toList.filter Event.isBracket =
      l.toList.filter Event.isBracket ++ es.filter Event.isBracket := by
  induction es generalizing l with
  | nil => exact (List.append_nil _).symm
  | cons e es ih =>
    have hstep := ih (l.absorb e)
    rw [filter_isBracket_absorb, List.append_assoc, ← List.filter_append] at hstep
    exact hstep

namespace Forest

theorem IsGrown.side_lefts {f : Forest} (hf : f.IsGrown) : ∀ b ∈ f.lefts, b.side = .left := by
  induction hf with
  | nil => simp [lefts]
  | leaf _ _ ih => exact ih
  | region _ hbody _ ih =>
    rw [lefts, hbody.lefts_eq_nil]
    exact ih
  | opened hside _ ih => simpa [lefts] using ⟨hside, ih⟩

theorem filter_isBracket_values (values : List Value) :
    (values.map Event.value).filter Event.isBracket = [] := by
  rw [List.filter_map]
  simp [Event.isBracket, Function.comp_def]

theorem filter_isBracket_keptBody (outer : List Frame) (f : Forest) :
    (keptBody outer f).filter Event.isBracket = (keptEvents outer f).filter Event.isBracket := by
  rw [keptBody, List.filter_append, filter_isBracket_values, List.nil_append]

/-- Of the brackets, those of the open regions are kept. -/
theorem IsGrown.filter_isBracket_keptEvents {f : Forest} (hf : f.IsGrown) (outer : List Frame) :
    (keptEvents outer f).filter Event.isBracket = f.lefts.map .bracket := by
  induction f generalizing outer with
  | nil => rfl
  | leaf e later ih =>
    cases hf with
    | leaf hevent hlater =>
      rw [keptEvents_leaf, lefts, ← ih hlater outer]
      split
      · rfl
      · exact List.filter_cons_of_neg (by simp [hevent])
  | region left body right later ihb ihl =>
    cases hf with
    | region _ hbody hlater =>
      rw [keptEvents_closed, List.filter_append, filter_isBracket_keptBody, ihb hbody.isGrown,
        ihl hlater, lefts, List.map_append, List.map_append]
      rfl
    | opened _ hbody =>
      rw [keptEvents_opened, List.filter_cons_of_pos rfl, filter_isBracket_keptBody, ihb hbody]
      simp [lefts]

end Forest

/-- Of the brackets, a compact log keeps those that are open. -/
theorem Log.filter_isBracket_compact {l : Log} {f : Forest} (hf : l.forest = .ok f) :
    (absorbAll ∅ f.compactEvents).toList.filter Event.isBracket = f.lefts.map .bracket := by
  rw [filter_isBracket_absorbAll, Forest.compactEvents_eq, Forest.filter_isBracket_keptBody,
    (Forest.isGrown_ofEvents hf).filter_isBracket_keptEvents]
  rfl

theorem Log.side_of_mem_compact {l c : Log} (h : l.compact = .ok c) {b : Bracket}
    (hb : .bracket b ∈ c.toList) : b.side = .left := by
  obtain ⟨f, hf, rfl⟩ := compact_eq_ok_iff.mp h
  have hmem := List.mem_filter.mpr ⟨hb, (rfl : Event.isBracket (.bracket b) = true)⟩
  rw [filter_isBracket_compact hf] at hmem
  obtain ⟨b', hb', heq⟩ := List.mem_map.mp hmem
  obtain rfl := Event.bracket.inj heq
  exact (Forest.isGrown_ofEvents hf).side_lefts b' hb'

theorem Log.openLefts_compact {l c : Log} (h : l.compact = .ok c) :
    WellBracketed c.toList ∧ openLefts c.toList = openLefts l.toList := by
  obtain ⟨f, hf, rfl⟩ := compact_eq_ok_iff.mp h
  obtain ⟨f', hf', hlefts⟩ := forest_of_wellBracketed (wellBracketed_of_forest hf)
  obtain rfl := Except.ok.inj (hf'.symm.trans hf)
  have hsides := (Forest.isGrown_ofEvents hf).side_lefts
  have hbrackets := filter_isBracket_compact hf
  refine ⟨wellBracketed_of_lefts hbrackets hsides, ?_⟩
  rw [← openLefts_filter, hbrackets, openLefts_lefts hsides, hlefts, List.reverse_reverse]

end Brackets

/-- A search that starts inside any number of scopes finds the same in a compact log. -/
theorem Log.lookBack_compact_eq {l : Log} {f : Forest} (hf : l.forest = .ok f) {v : Variable}
    (hv : f.IsScoped v) (depth : Nat) :
    lookBack (·.delimits v) (·.sets v) depth (absorbAll ∅ f.compactEvents).recent =
      lookBack (·.delimits v) (·.sets v) depth l.recent := by
  have hgrown := Forest.isGrown_ofEvents hf
  cases depth with
  | zero =>
    have hcompact := findInScope_compact (v := v) hgrown
    have hlog : l.findInScope (·.delimits v) (·.sets v) =
        (lastStop (·.delimits v) (·.sets v) (f.outside (·.delimits v))).bind
          (Event.sought (·.delimits v)) :=
      findInScope_eq (fun b => Bracket.delimits_other b v) hf
    rw [hv.lastStop_keptBody hgrown, ← hlog] at hcompact
    exact hcompact
  | succ depth =>
    have hlog : lookBack (·.delimits v) (·.sets v) (depth + 1) l.recent =
        lookBack (·.delimits v) (·.sets v) (depth + 1) (f.outside (·.delimits v)).reverse :=
      lookBack_recent (fun b => Bracket.delimits_other b v) hf (depth + 1)
    rw [hlog, lookBack_compact, (hv.valuesLast_keptBody hgrown).lookBack_succ,
      (hv.valuesLast_outside hgrown).lookBack_succ]

/-- What can follow a log can follow the compact log, and what cannot fails at the same bracket. A
scoped variable reads the same in both after the same events. -/
theorem Log.compact_continues {l : Log} {f : Forest} (hf : l.forest = .ok f) :
    ∃ c, l.compact = .ok c ∧
      (∀ es, ((∃ g, (c.appendAll es).forest = .ok g) ↔ ∃ g, (l.appendAll es).forest = .ok g) ∧
        ∀ e, (c.appendAll es).forest = .error e ↔ (l.appendAll es).forest = .error e) ∧
      ∀ v, f.IsScoped v → ∀ es, (c.appendAll es).binding v = (l.appendAll es).binding v := by
  have hc : l.compact = .ok (absorbAll ∅ f.compactEvents) := compact_eq_ok_iff.mpr ⟨f, hf, rfl⟩
  obtain ⟨hwell, hlefts⟩ := openLefts_compact hc
  refine ⟨_, hc, forest_appendAll_congr hwell (wellBracketed_of_forest hf) hlefts, ?_⟩
  intro v hv es
  have hfound : ((absorbAll ∅ f.compactEvents).appendAll es).findInScope (·.delimits v) (·.sets v) =
      (l.appendAll es).findInScope (·.delimits v) (·.sets v) := by
    unfold findInScope
    rw [recent_appendAll, recent_appendAll]
    exact lookBack_append_congr es.reverse (lookBack_compact_eq hf hv) 0
  rw [binding, hfound, binding]

/-! ### A log compacted within the scope of a variable -/

namespace Resumed

def lang : Variable := ⟨⟨"lang", by decide +kernel⟩, .single .text⟩

def english : Value := .unchecked lang.name .text (.text "en")

def scope : Bracket := ⟨.left, .scope lang⟩

def item : Bracket := ⟨.left, .boundary ⟨"item", by decide +kernel⟩⟩

def text (s : String) : Event := .chunk (.plain s)

def log : Log :=
  Log.ofList [.bracket scope, .value english, .bracket item, text "a", .bracket item.other]

def forest : Forest :=
  .region scope (.leaf (.value english)
    (.region item (.leaf (text "a") .nil) (some item.other) .nil)) none .nil

def following : List Event := [.bracket item, text "b", .bracket item.other]

theorem isScoped : forest.IsScoped lang := ⟨by decide, .inr (by decide)⟩

end Resumed

theorem Log.compact_continues_item :
    Resumed.log.forest = .ok Resumed.forest ∧ Resumed.forest.IsScoped Resumed.lang ∧
      ∃ c, Resumed.log.compact = .ok c ∧ (∃ g, (c.appendAll Resumed.following).forest = .ok g) ∧
        (c.appendAll Resumed.following).binding Resumed.lang = .ok (some Resumed.english) ∧
        (c.appendAll [.bracket Resumed.item.other]).forest =
          .error (.strayRight Resumed.item.other) := by
  have hforest : Resumed.log.forest = .ok Resumed.forest := rfl
  obtain ⟨c, hc, hbuilds, hreads⟩ := Log.compact_continues hforest
  refine ⟨hforest, Resumed.isScoped, c, hc, ?_, ?_, ?_⟩
  · exact (hbuilds Resumed.following).1.mpr ⟨_, rfl⟩
  · exact (hreads Resumed.lang Resumed.isScoped Resumed.following).trans rfl
  · exact ((hbuilds [.bracket Resumed.item.other]).2 _).mpr rfl

end ParseLog
