import ParseLog.Proofs.Forest.Grown
import ParseLog.Proofs.Log.Searching
/-!
# Searching a forest

A search sees the events outside the closed scopes of a forest. It ends at the last of them that is
wanted or starts an open scope.
-/

namespace ParseLog
set_option autoImplicit false

variable (delimits : Bracket → Bool) (wanted : Event → Bool)

/-- Whether a search ends at the event. -/
def Event.stops (e : Event) : Bool := wanted e || (e.scopeSide? delimits).isSome

/-- The last event at which a search ends. -/
def lastStop (es : List Event) : Option Event := (es.filter (·.stops delimits wanted)).getLast?

/-- The events outside the closed scopes. -/
def Forest.outside : Forest → List Event
  | nil => []
  | leaf e later => e :: later.outside
  | region left body right later =>
    (if right.isSome && delimits left then []
      else .bracket left :: (body.outside ++ right.toList.map Event.bracket)) ++ later.outside

variable {delimits wanted}

theorem lastStop_append (es fs : List Event) :
    lastStop delimits wanted (es ++ fs) =
      (lastStop delimits wanted fs).or (lastStop delimits wanted es) := by
  simp [lastStop, List.getLast?_append]

theorem lastStop_cons (e : Event) (es : List Event) :
    lastStop delimits wanted (e :: es) =
      (lastStop delimits wanted es).or (if e.stops delimits wanted then some e else none) := by
  rw [← List.singleton_append, lastStop_append]
  by_cases he : e.stops delimits wanted = true <;> simp [lastStop, he]

theorem lastStop_eq_none_iff {es : List Event} :
    lastStop delimits wanted es = none ↔ ∀ e ∈ es, e.stops delimits wanted = false := by
  simp [lastStop]

/-- The outcome of a search that ends at `e`. -/
def Event.sought (delimits : Bracket → Bool) (e : Event) : Option Event :=
  if (e.scopeSide? delimits).isSome then none else some e

namespace Log

/-- A search over open scopes only. -/
theorem lookBack_reverse_append {es : List Event}
    (hes : ∀ e ∈ es, e.scopeSide? delimits ≠ some .right) (older : List Event) :
    lookBack delimits wanted 0 (es.reverse ++ older) =
      match lastStop delimits wanted es with
      | some e => e.sought delimits
      | none => lookBack delimits wanted 0 older := by
  induction es generalizing older with
  | nil => rfl
  | cons e es ih =>
    obtain ⟨he, hes'⟩ := List.forall_mem_cons.mp hes
    rw [List.reverse_cons, List.append_assoc, List.singleton_append, ih hes', lastStop_cons]
    cases lastStop delimits wanted es with
    | some stop => rfl
    | none =>
      cases hside : e.scopeSide? delimits with
      | none =>
        by_cases hwanted : wanted e = true
        · simp [Event.stops, Event.sought, hside, hwanted, lookBack_found hside hwanted]
        · have hwanted' : wanted e = false := by simpa using hwanted
          simp [Event.stops, hside, hwanted', lookBack_passed hside hwanted']
      | some side =>
        cases side with
        | left => simp [Event.stops, Event.sought, hside, lookBack_left_zero hside]
        | right => exact absurd hside he

end Log

theorem scopeSide?_of_not_bracket {e : Event} (h : e.isBracket = false) :
    e.scopeSide? delimits = none := by
  cases e <;> first | rfl | cases h

theorem scopeSide?_of_not_delimits {b : Bracket} (h : delimits b = false) :
    (Event.bracket b).scopeSide? delimits = none := by
  simp [Event.scopeSide?, h]

theorem scopeSide?_bracket {b : Bracket} {side : Side} (h : delimits b = true)
    (hside : b.side = side) : (Event.bracket b).scopeSide? delimits = some side := by
  simp [Event.scopeSide?, h, hside]

theorem scopeSide?_ne_right {b : Bracket} (hside : b.side = .left) :
    (Event.bracket b).scopeSide? delimits ≠ some .right := by
  by_cases hb : delimits b = true
  · simp [scopeSide?_bracket hb hside]
  · simp [scopeSide?_of_not_delimits (by simpa using hb)]

theorem side_other {b : Bracket} (h : b.side = .left) : b.other.side = .right := by
  simp [Bracket.other, h, Side.opposite]

namespace Forest

theorem reverse_events_leaf (e : Event) (later : Forest) (older : List Event) :
    (leaf e later).events.reverse ++ older = later.events.reverse ++ e :: older := by
  simp [events]

theorem reverse_events_region (left right : Bracket) (body later : Forest) (older : List Event) :
    (region left body (some right) later).events.reverse ++ older =
      later.events.reverse ++
        .bracket right :: (body.events.reverse ++ .bracket left :: older) := by
  simp [events]

theorem reverse_events_opened (left : Bracket) (body : Forest) (older : List Event) :
    (region left body none nil).events.reverse ++ older =
      body.events.reverse ++ .bracket left :: older := by
  simp [events]

theorem outside_scope {left right : Bracket} (h : delimits left = true) (body later : Forest) :
    (region left body (some right) later).outside delimits = later.outside delimits := by
  simp [outside, h]

theorem outside_region {left right : Bracket} (h : delimits left = false) (body later : Forest) :
    (region left body (some right) later).outside delimits =
      .bracket left :: (body.outside delimits ++ .bracket right :: later.outside delimits) := by
  simp [outside, h]

theorem outside_opened (left : Bracket) (body : Forest) :
    (region left body none nil).outside delimits = .bracket left :: body.outside delimits := by
  simp [outside]

end Forest

section Forests
-- A scope is delimited on both sides.
variable (hother : ∀ b : Bracket, delimits b.other = delimits b)
include hother

/-- A search inside a closed scope passes over whole regions. -/
theorem Log.lookBack_closed {f : Forest} (hf : f.IsClosed) (depth : Nat) (older : List Event) :
    lookBack delimits wanted (depth + 1) (f.events.reverse ++ older) =
      lookBack delimits wanted (depth + 1) older := by
  induction hf generalizing depth older with
  | nil => rfl
  | leaf hevent _ ih =>
    rw [Forest.reverse_events_leaf, ih, lookBack_inside (scopeSide?_of_not_bracket hevent)]
  | @region left body later hside _ _ ihb ihl =>
    rw [Forest.reverse_events_region, ihl]
    by_cases hleft : delimits left = true
    · have hright : delimits left.other = true := (hother left).trans hleft
      rw [lookBack_right (scopeSide?_bracket hright (side_other hside)), ihb,
        lookBack_left_succ (scopeSide?_bracket hleft hside)]
    · have hleft' : delimits left = false := by simpa using hleft
      rw [lookBack_inside (scopeSide?_of_not_delimits ((hother left).trans hleft')), ihb,
        lookBack_inside (scopeSide?_of_not_delimits hleft')]

theorem Forest.scopeSide?_outside {f : Forest} (hf : f.IsGrown) :
    ∀ e ∈ f.outside delimits, e.scopeSide? delimits ≠ some .right := by
  induction f with
  | nil => simp [outside]
  | leaf e later ih =>
    cases hf with
    | leaf hevent hlater =>
      refine List.forall_mem_cons.mpr ⟨?_, ih hlater⟩
      simp [scopeSide?_of_not_bracket hevent]
  | region left body right later ihb ihl =>
    cases hf with
    | region hside hbody hlater =>
      by_cases hleft : delimits left = true
      · rw [outside_scope hleft]
        exact ihl hlater
      · have hleft' : delimits left = false := by simpa using hleft
        rw [outside_region hleft', List.forall_mem_cons, List.forall_mem_append,
          List.forall_mem_cons]
        refine ⟨scopeSide?_ne_right hside, ihb hbody.isGrown, ?_, ihl hlater⟩
        simp [scopeSide?_of_not_delimits ((hother left).trans hleft')]
    | opened hside hbody =>
      rw [outside_opened, List.forall_mem_cons]
      exact ⟨scopeSide?_ne_right hside, ihb hbody⟩

theorem Log.lookBack_outside {f : Forest} (hf : f.IsGrown) (depth : Nat) (older : List Event) :
    lookBack delimits wanted depth (f.events.reverse ++ older) =
      lookBack delimits wanted depth ((f.outside delimits).reverse ++ older) := by
  induction f generalizing depth older with
  | nil => rfl
  | leaf e later ih =>
    cases hf with
    | leaf _ hlater =>
      rw [Forest.reverse_events_leaf, ih hlater]
      simp [Forest.outside]
  | region left body right later ihb ihl =>
    cases hf with
    | region hside hbody hlater =>
      rw [Forest.reverse_events_region, ihl hlater]
      by_cases hleft : delimits left = true
      · have hright : delimits left.other = true := (hother left).trans hleft
        rw [Forest.outside_scope hleft]
        -- Read backwards, the scope is entered at its right bracket and left at its left one.
        apply lookBack_append_congr
        intro depth
        rw [lookBack_right (scopeSide?_bracket hright (side_other hside)),
          lookBack_closed hother hbody, lookBack_left_succ (scopeSide?_bracket hleft hside)]
      · have hsplit :
            ((Forest.region left body (some left.other) later).outside delimits).reverse ++ older =
              (later.outside delimits).reverse ++ .bracket left.other ::
                ((body.outside delimits).reverse ++ .bracket left :: older) := by
          simp [Forest.outside_region (by simpa using hleft)]
        rw [hsplit]
        apply lookBack_append_congr
        apply lookBack_cons_congr
        intro depth
        exact ihb hbody.isGrown depth (.bracket left :: older)
    | opened hside hbody =>
      rw [Forest.reverse_events_opened, ihb hbody, Forest.outside_opened]
      simp

theorem Log.lookBack_recent {l : Log} {f : Forest} (hf : l.forest = .ok f) (depth : Nat) :
    lookBack delimits wanted depth l.recent =
      lookBack delimits wanted depth (f.outside delimits).reverse := by
  have hevents : f.events.reverse = l.recent := by
    rw [Forest.events_ofEvents hf, toList, List.reverse_reverse]
  rw [← hevents, ← List.append_nil f.events.reverse,
    lookBack_outside hother (Forest.isGrown_ofEvents hf), List.append_nil]

/-- A search in a log ends at the last stop outside the closed scopes of its forest. -/
theorem Log.findInScope_eq {l : Log} {f : Forest} (hf : l.forest = .ok f) :
    l.findInScope delimits wanted =
      (lastStop delimits wanted (f.outside delimits)).bind (Event.sought delimits) := by
  have hgrown := Forest.isGrown_ofEvents hf
  unfold findInScope
  rw [lookBack_recent hother hf, ← List.append_nil (f.outside delimits).reverse,
    lookBack_reverse_append (Forest.scopeSide?_outside hother hgrown)]
  cases lastStop delimits wanted (f.outside delimits) <;> rfl

end Forests

end ParseLog
