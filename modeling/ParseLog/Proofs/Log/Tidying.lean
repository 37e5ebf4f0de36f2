import Mathlib.Data.List.Sort
import ParseLog.Proofs.Log.Reduced
import ParseLog.Proofs.Log.Resuming
import ParseLog.Proofs.Log.SingleValued
/-!
# Compacting a compact log

All values of a compact log are live and all its regions are open, so a second compaction drops
nothing. It only moves the values of each stretch between brackets to the front of the stretch, in the
order of events: those that came out of closed regions may stand behind chunks and markers. After that,
compaction changes nothing any more.
-/

namespace ParseLog
set_option autoImplicit false

/-- Whether `b` may stay right after `a`: a value has only brackets and values of no greater name
right before it. -/
def Event.mayPrecede : Event → Event → Bool
  | bracket _, _ => true
  | value a, value b => (compare a.var.name b.var.name).isLE
  | _, value _ => false
  | _, _ => true

abbrev Event.MayPrecede (a b : Event) : Prop := a.mayPrecede b = true

/-- Whether the values of each stretch between brackets stand in front, by the names of their
variables. -/
def Tidy (es : List Event) : Prop := es.IsChain Event.MayPrecede

/-- The events with the values of each stretch moved to its front, as `fronted_tidy` says. The
relation is not transitive across brackets, which is what holds the stretches apart. -/
def tidy (es : List Event) : List Event := es.insertionSort Event.MayPrecede

/-- Whether `a` does not come after `b` in the order of events. -/
abbrev Event.NotAfter (a b : Event) : Prop := a.order? b ≠ some .gt

/-- The events with those that may move in front, sorted by their order; the sort is stable. -/
def frontMovable (es : List Event) : List Event :=
  (es.filter Event.isMovable).insertionSort Event.NotAfter ++ es.filter (!·.isMovable)

/-- Whether `moved` is `es` with the movable events of each stretch between brackets in front of the
stretch. -/
inductive Fronted : (es moved : List Event) → Prop where
  | last {stretch : List Event} (flat : ∀ e ∈ stretch, e.isBracket = false) :
      Fronted stretch (frontMovable stretch)
  | bracket {stretch rest moved : List Event} (b : Bracket)
      (flat : ∀ e ∈ stretch, e.isBracket = false) (others : Fronted rest moved) :
      Fronted (stretch ++ .bracket b :: rest) (frontMovable stretch ++ .bracket b :: moved)

namespace Event

def value? : Event → Option Value
  | value a => some a
  | _ => none

/-- Only values may move. -/
theorem isMovable_iff {e : Event} : e.isMovable = true ↔ ∃ a, e = value a := by
  cases e <;> simp [isMovable, isValue]

theorem filter_isMovable (es : List Event) :
    es.filter isMovable = (es.filterMap value?).map value := by
  induction es with
  | nil => rfl
  | cons e es ih =>
    by_cases he : e.isMovable = true
    · obtain ⟨a, rfl⟩ := isMovable_iff.mp he
      rw [List.filter_cons_of_pos he, ih]
      rfl
    · rw [List.filter_cons_of_neg he, ih]
      cases e with
      | value a => exact absurd (isMovable_iff.mpr ⟨a, rfl⟩) he
      | _ => rfl

theorem notAfter_value {a b : Value} :
    (value a).NotAfter (value b) ↔ (compare a.var.name b.var.name).isLE = true := by
  cases hcompare : compare a.var.name b.var.name <;> simp [NotAfter, order?, hcompare]

theorem mayPrecede_of_not_value {e x : Event} (hx : x.isValue = false) :
    e.mayPrecede x = true := by
  cases e <;> cases x <;> first | rfl | cases hx

/-- Of two events one may precede the other. -/
theorem mayPrecede_total {e x : Event} (h : e.mayPrecede x = false) : x.mayPrecede e = true := by
  cases e <;> cases x <;> simp only [mayPrecede, reduceCtorEq] at h ⊢
  case value.value a b =>
    have hswap : compare b.var.name a.var.name = (compare a.var.name b.var.name).swap :=
      Std.OrientedCmp.eq_swap
    rw [hswap]
    cases hcompare : compare a.var.name b.var.name <;> simp_all

theorem mayPrecede_coalesce? {last next merged : Event} (h : last.coalesce? next = some merged) :
    (∀ x : Event, x.mayPrecede last = true → x.mayPrecede merged = true) ∧
      ∀ x : Event, next.mayPrecede x = true → merged.mayPrecede x = true := by
  obtain ⟨c, d, rfl, rfl, rfl⟩ | ⟨a, b, rfl, rfl, hvar, rfl⟩ := coalesce?_cases h
  · refine ⟨fun x _ => mayPrecede_of_not_value rfl, ?_⟩
    intro x hx
    cases x <;> first | rfl | cases hx
  · refine ⟨?_, fun x hx => hx⟩
    intro x hx
    cases x <;> simp_all [mayPrecede]

end Event

theorem map_insertByName (a : Value) (values : List Value) :
    (insertByName a values).map Event.value =
      (values.map Event.value).orderedInsert Event.NotAfter (.value a) := by
  induction values with
  | nil => rfl
  | cons b values ih =>
    rw [List.map_cons, List.orderedInsert_cons, ← ih, insertByName]
    by_cases hle : (compare a.var.name b.var.name).isLE = true
    · rw [if_pos hle, if_pos (Event.notAfter_value.mpr hle)]
      rfl
    · rw [if_neg hle, if_neg (mt Event.notAfter_value.mp hle)]
      rfl

/-- Sorting values by name is the stable sort of events by their order. -/
theorem map_sortByName (values : List Value) :
    (sortByName values).map Event.value = (values.map Event.value).insertionSort Event.NotAfter := by
  induction values with
  | nil => rfl
  | cons a values ih =>
    have hsort : sortByName (a :: values) = insertByName a (sortByName values) := rfl
    rw [hsort, map_insertByName, ih]
    rfl

section Tidying
variable {es : List Event}

theorem not_value_head?_append {fs : List Event} (hes : ∀ x ∈ es, x.isValue = false)
    (hfs : ∀ x ∈ fs.head?, x.isValue = false) : ∀ x ∈ (es ++ fs).head?, x.isValue = false := by
  intro x hx
  rw [List.head?_append] at hx
  rcases Option.or_eq_some_iff.mp hx with hx | ⟨-, hx⟩
  · exact hes x (List.mem_of_mem_head? hx)
  · exact hfs x hx

theorem tidy_cons (e : Event) (es : List Event) :
    tidy (e :: es) = (tidy es).orderedInsert Event.MayPrecede e := rfl

theorem tidy_eq_self (h : Tidy es) : tidy es = es := by
  induction es with
  | nil => rfl
  | cons e es ih =>
    obtain ⟨he, hes⟩ := List.isChain_cons.mp h
    rw [tidy_cons, ih hes]
    cases es with
    | nil => rfl
    | cons x later => exact List.orderedInsert_cons_of_le _ _ (he x rfl)

theorem tidy_orderedInsert (h : Tidy es) (e : Event) :
    Tidy (es.orderedInsert Event.MayPrecede e) := by
  induction es with
  | nil => exact .singleton e
  | cons x es ih =>
    obtain ⟨hx, hes⟩ := List.isChain_cons.mp h
    by_cases he : e.MayPrecede x
    · rw [List.orderedInsert_cons_of_le _ _ he]
      exact List.isChain_cons_cons.mpr ⟨he, h⟩
    · rw [List.orderedInsert_of_not_le _ _ he]
      refine List.isChain_cons.mpr ⟨?_, ih hes⟩
      -- In front of what follows `x` is `e` or what followed `x` before.
      intro y hy
      have hxe : x.mayPrecede e = true := Event.mayPrecede_total (by simpa using he)
      cases es with
      | nil =>
        obtain rfl : e = y := by simpa using hy
        exact hxe
      | cons z later =>
        by_cases hez : e.MayPrecede z
        · rw [List.orderedInsert_cons_of_le _ _ hez] at hy
          obtain rfl : e = y := by simpa using hy
          exact hxe
        · rw [List.orderedInsert_of_not_le _ _ hez] at hy
          obtain rfl : z = y := by simpa using hy
          exact hx z rfl

theorem tidy_tidy (es : List Event) : Tidy (tidy es) := by
  induction es with
  | nil => exact .nil
  | cons e es ih => exact tidy_orderedInsert ih e

section Values
variable (values : List Value) {rest : List Event} (hrest : ∀ x ∈ rest.head?, x.isValue = false)
include hrest

theorem orderedInsert_value (a : Value) :
    (values.map Event.value ++ rest).orderedInsert Event.MayPrecede (.value a) =
      (insertByName a values).map .value ++ rest := by
  induction values with
  | nil =>
    cases rest with
    | nil => rfl
    | cons x rest =>
      exact List.orderedInsert_cons_of_le _ _ (Event.mayPrecede_of_not_value (hrest x rfl))
  | cons b values ih =>
    rw [List.map_cons, List.cons_append, List.orderedInsert_cons, ih, insertByName]
    by_cases hle : (compare a.var.name b.var.name).isLE = true
    · simp [Event.mayPrecede, hle]
    · simp [Event.mayPrecede, hle]

theorem orderedInsert_other {e : Event} (he : e.isValue = false) (hbracket : e.isBracket = false) :
    (values.map Event.value ++ rest).orderedInsert Event.MayPrecede e =
      values.map .value ++ e :: rest := by
  induction values with
  | nil =>
    cases rest with
    | nil => rfl
    | cons x rest =>
      exact List.orderedInsert_cons_of_le _ _ (Event.mayPrecede_of_not_value (hrest x rfl))
  | cons b values ih =>
    have hb : ¬ e.MayPrecede (.value b) := by
      cases e <;> simp_all [Event.mayPrecede, Event.isValue, Event.isBracket]
    rw [List.map_cons, List.cons_append, List.orderedInsert_of_not_le _ _ hb, ih]
    rfl

end Values

theorem tidy_bracket (b : Bracket) (es : List Event) :
    tidy (.bracket b :: es) = .bracket b :: tidy es := by
  rw [tidy_cons]
  cases tidy es with
  | nil => rfl
  | cons x later => exact List.orderedInsert_cons_of_le _ _ rfl

/-- Before the next bracket, what may move comes first and sorted, and the rest keeps its order. -/
theorem tidy_stretch (hes : ∀ e ∈ es, e.isBracket = false) {rest : List Event}
    (hrest : ∀ x ∈ rest.head?, x.isBracket = true) :
    tidy (es ++ rest) = frontMovable es ++ tidy rest := by
  have hnext : ∀ x ∈ (tidy rest).head?, x.isValue = false := by
    cases rest with
    | nil => simp [tidy]
    | cons x rest =>
      cases x with
      | bracket b => simp [tidy_bracket, Event.isValue]
      | _ => cases hrest _ rfl
  rw [frontMovable, Event.filter_isMovable, ← map_sortByName, List.append_assoc]
  induction es with
  | nil => rfl
  | cons e es ih =>
    have hhead : ∀ x ∈ (es.filter (!·.isMovable) ++ tidy rest).head?, x.isValue = false := by
      apply not_value_head?_append _ hnext
      intro x hx
      simpa [Event.isMovable] using (List.mem_filter.mp hx).2
    rw [List.cons_append, tidy_cons, ih fun x hx => hes x (List.mem_cons_of_mem e hx)]
    cases e with
    | bracket b => cases hes _ List.mem_cons_self
    | value a => exact orderedInsert_value _ hhead a
    | chunk c => exact orderedInsert_other _ hhead rfl rfl
    | marker m => exact orderedInsert_other _ hhead rfl rfl

/-- Here `stretch` is what has been read of the present stretch. -/
theorem fronted_tidy_append (stretch es : List Event) (hflat : ∀ e ∈ stretch, e.isBracket = false) :
    Fronted (stretch ++ es) (tidy (stretch ++ es)) := by
  induction es generalizing stretch with
  | nil =>
    rw [tidy_stretch hflat (by simp), List.append_nil, tidy, List.insertionSort_nil, List.append_nil]
    exact .last hflat
  | cons e es ih =>
    by_cases he : e.isBracket = true
    · obtain ⟨b, rfl⟩ : ∃ b, e = .bracket b := by
        cases e with
        | bracket b => exact ⟨b, rfl⟩
        | _ => cases he
      have hnext : ∀ x ∈ (Event.bracket b :: es).head?, x.isBracket = true := by simp [Event.isBracket]
      have hothers : Fronted es (tidy es) := ih [] (by simp)
      rw [tidy_stretch hflat hnext, tidy_bracket]
      exact .bracket b hflat hothers
    · have hlonger : ∀ x ∈ stretch ++ [e], x.isBracket = false := by
        intro x hx
        rcases List.mem_append.mp hx with hx | hx
        · exact hflat x hx
        · obtain rfl := List.mem_singleton.mp hx
          simpa using he
      simpa using ih (stretch ++ [e]) hlonger

theorem fronted_tidy (es : List Event) : Fronted es (tidy es) :=
  fronted_tidy_append [] es (by simp)

theorem tidy_sortByName (values : List Value) {rest : List Event} (htidy : Tidy rest)
    (hrest : ∀ x ∈ rest.head?, x.isValue = false) :
    Tidy ((sortByName values).map Event.value ++ rest) := by
  induction values with
  | nil => exact htidy
  | cons a values ih =>
    have hsort : sortByName (a :: values) = insertByName a (sortByName values) := rfl
    rw [hsort, ← orderedInsert_value _ hrest]
    exact tidy_orderedInsert ih _

end Tidying

namespace Forest

theorem not_right_of_events {left : Bracket} {body later : Forest} (hside : left.side = .left)
    (h : ∀ b, .bracket b ∈ (region left body (some left.other) later).events → b.side = .left) :
    False := by
  have hleft := h left.other (by simp [events])
  rw [side_other hside] at hleft
  cases hleft

section Lefts
variable {f : Forest} (hf : f.IsGrown) (hlefts : ∀ b, .bracket b ∈ f.events → b.side = .left)
include hf hlefts

theorem not_value_head?_keptEvents (outer : List Frame) :
    ∀ x ∈ (keptEvents outer f).head?, x.isValue = false := by
  induction f generalizing outer with
  | nil => simp
  | leaf e later ih =>
    cases hf with
    | leaf hevent hlater =>
      rw [keptEvents_leaf]
      split
      · exact ih hlater (fun b hb => hlefts b (List.mem_cons_of_mem e hb)) outer
      · rename_i he
        simpa using he
  | region left body right later ihb ihl =>
    cases hf with
    | region hside => exact absurd hlefts fun h => not_right_of_events hside h
    | opened =>
      rw [keptEvents_opened]
      simp [Event.isValue]

/-- Where no region is closed and no variable is set twice, compaction only moves values. -/
theorem keptBody_eq_tidy (hsingle : SingleValued f.events) {outer : List Frame}
    (houter : ∀ v, isLive v nil outer = true) : keptBody outer f = tidy f.events := by
  induction f generalizing outer with
  | nil => rfl
  | leaf e later ih =>
    cases hf with
    | leaf hevent hlater =>
      have hlefts' : ∀ b, .bracket b ∈ later.events → b.side = .left :=
        fun b hb => hlefts b (List.mem_cons_of_mem e hb)
      have hhead := not_value_head?_keptEvents hlater hlefts' outer
      rw [events, tidy_cons, ← ih hlater hlefts' hsingle.of_cons houter, keptBody, keptBody]
      cases e with
      | bracket b => cases hevent
      | chunk c => exact (orderedInsert_other _ hhead rfl rfl).symm
      | marker m => exact (orderedInsert_other _ hhead rfl rfl).symm
      | value a =>
        have hlive : isLive a.var later outer = true := by
          have hunset : later.sets a.var = false := by
            apply Bool.eq_false_iff.mpr
            intro hsets
            obtain ⟨x, hx, hxsets⟩ := sets_iff.mp hsets
            have hself : (Event.value a).sets a.var = true := by simp [Event.sets, Value.isOf]
            cases (hsingle.not_sets hself x hx).symm.trans hxsets
          rw [isLive_eq, houter, hunset]
          rfl
        rw [orderedInsert_value _ hhead, liveValues, if_pos hlive]
        rfl
  | region left body right later ihb ihl =>
    cases hf with
    | region hside => exact absurd hlefts fun h => not_right_of_events hside h
    | opened hside hbody =>
      have hevents : (region left body none nil).events = .bracket left :: body.events := by
        simp [events]
      rw [hevents] at hlefts hsingle
      have hinner : ∀ v, isLive v nil (⟨left, none, nil⟩ :: outer) = true :=
        fun v => isLive_frame_opened (houter v)
      have hbody' :=
        ihb hbody (fun b hb => hlefts b (List.mem_cons_of_mem _ hb)) hsingle.of_cons hinner
      rw [hevents, tidy_bracket, ← hbody']
      exact keptEvents_opened outer left body

end Lefts

end Forest

namespace Log

theorem tidy_absorbAll {l : Log} {es : List Event} (h : Tidy (l.toList ++ es)) :
    Tidy (l.absorbAll es).toList := by
  induction es generalizing l with
  | nil => simpa [absorbAll] using h
  | cons e es ih =>
    apply ih (l := l.absorb e)
    obtain ⟨-, habsorb⟩ | ⟨older, last, merged, rfl, hm, habsorb⟩ := absorb_cases l e
    · rw [habsorb, toList_append, List.append_assoc]
      exact h
    · rw [toList_append, List.append_assoc] at h
      rw [habsorb, toList_append, List.append_assoc]
      obtain ⟨hbefore, hafter⟩ := Event.mayPrecede_coalesce? hm
      obtain ⟨holder, hrest, hseam⟩ := List.isChain_append.mp h
      obtain ⟨-, hnext⟩ := List.isChain_cons.mp hrest
      obtain ⟨hhead, hes⟩ := List.isChain_cons.mp hnext
      refine List.isChain_append.mpr ⟨holder, List.isChain_cons.mpr ⟨?_, hes⟩, ?_⟩
      · intro x hx
        exact hafter x (hhead x hx)
      · intro x hx y hy
        obtain rfl : merged = y := by simpa using hy
        exact hbefore x (hseam x hx last rfl)

/-- A compact log compacts to itself with the values of each stretch moved to its front. -/
theorem compact_of_compact {l c : Log} (h : l.compact = .ok c) :
    c.compact = .ok (absorbAll ∅ (tidy c.toList)) := by
  obtain ⟨f, hf, -⟩ := forest_of_wellBracketed (openLefts_compact h).1
  have hevents : f.events = c.toList := Forest.events_ofEvents hf
  have hkept : f.compactEvents = tidy c.toList := by
    rw [← hevents]
    apply Forest.keptBody_eq_tidy (Forest.isGrown_ofEvents hf)
    · intro b hb
      exact side_of_mem_compact h (hevents ▸ hb)
    · exact hevents ▸ singleValued_compact h
    · exact fun _ => rfl
  exact compact_eq_ok_iff.mpr ⟨f, hf, by rw [hkept]⟩

theorem compact_eq_self_of_tidy {l c : Log} (h : l.compact = .ok c) (hc : Tidy c.toList) :
    c.compact = .ok c := by
  rw [compact_of_compact h, tidy_eq_self hc, absorbAll_empty (reduced_compact h)]
  exact congrArg Except.ok (ext_toList (toList_ofList c.toList))

end Log

end ParseLog
