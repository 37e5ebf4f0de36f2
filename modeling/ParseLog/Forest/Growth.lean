import ParseLog.Forest.Basic
import ParseLog.Log.Basic
/-!
# Growing a forest event by event

A forest grows at its right edge only: in the body of the innermost open region. A left bracket opens
a region there, and a right bracket has to close the innermost one. Main statement: nothing that was
recorded is lost.
-/

namespace ParseLog
set_option autoImplicit false

/-- A region that is still open, with the siblings before it, the most recent first. -/
structure OpenRegion where
  earlier : Forest
  left : Bracket

/-- A forest under construction. -/
structure Growth where
  /-- The nodes in the body of the innermost open region, the most recent first. -/
  recent : Forest
  /-- The open regions, the innermost first. -/
  opened : List OpenRegion

namespace Growth

def start : Growth := ⟨.nil, []⟩

/-- Opens a region in the innermost body. -/
def enter (g : Growth) (b : Bracket) : Growth :=
  ⟨.nil, ⟨g.recent, b⟩ :: g.opened⟩

/-- Closes the innermost open region, which has to be the one that `b` names. -/
def leave (g : Growth) (b : Bracket) : Except Violation Growth :=
  match g.opened with
  | [] => .error (.strayRight b)
  | o :: outer =>
    if o.left.pairsWith b then
      .ok ⟨.region o.left g.recent.reverse (some b) o.earlier, outer⟩
    else .error (.strayRight b)

def step (g : Growth) : Event → Except Violation Growth
  | .bracket b =>
    match b.side with
    | .left => .ok (g.enter b)
    | .right => g.leave b
  | e => .ok { g with recent := .leaf e g.recent }

/-- The forest with `opened` around the innermost body, which comes in reverse order. -/
def enclose (recent : Forest) : List OpenRegion → Forest
  | [] => recent.reverse
  | o :: outer => enclose (.region o.left recent.reverse none o.earlier) outer

def forest (g : Growth) : Forest := enclose g.recent g.opened

def run (g : Growth) (es : List Event) : Except Violation Growth :=
  es.foldlM step g

end Growth

/-- The forest of the events; fails at the first right bracket without its open left bracket. -/
def Forest.ofEvents (es : List Event) : Except Violation Forest :=
  (Growth.start.run es).map Growth.forest

def Log.forest (l : Log) : Except Violation Forest := Forest.ofEvents l.toList

namespace Forest

theorem events_reverseOnto (f g : Forest) :
    (reverseOnto f g).events = (reverseOnto nil g).events ++ f.events := by
  induction g generalizing f with
  | nil => rfl
  | leaf e later ih =>
    simp only [reverseOnto]
    rw [ih (leaf e f), ih (leaf e nil)]
    simp [events]
  | region left body right later _ ih =>
    simp only [reverseOnto]
    rw [ih (region left body right f), ih (region left body right nil)]
    simp [events]

@[simp] theorem events_reverse_leaf (e : Event) (g : Forest) :
    (leaf e g).reverse.events = g.reverse.events ++ [e] := by
  simp only [reverse, reverseOnto]
  rw [events_reverseOnto]
  simp [events]

@[simp] theorem events_reverse_region (left : Bracket) (body : Forest) (right : Option Bracket)
    (g : Forest) :
    (region left body right g).reverse.events =
      g.reverse.events ++ .bracket left :: (body.events ++ right.toList.map Event.bracket) := by
  simp only [reverse, reverseOnto]
  rw [events_reverseOnto]
  simp [events]

end Forest

namespace Growth

/-- The events recorded before the innermost open body, for each open region with its left bracket. -/
def outerEvents : List OpenRegion → List Event
  | [] => []
  | o :: outer => outerEvents outer ++ (o.earlier.reverse.events ++ [.bracket o.left])

/-- All the events recorded so far. -/
def events (g : Growth) : List Event := outerEvents g.opened ++ g.recent.reverse.events

theorem events_enclose (recent : Forest) (opened : List OpenRegion) :
    (enclose recent opened).events = outerEvents opened ++ recent.reverse.events := by
  induction opened generalizing recent with
  | nil => simp [enclose, outerEvents]
  | cons o outer ih => simp [enclose, ih, outerEvents]

theorem events_forest (g : Growth) : g.forest.events = g.events := events_enclose _ _

theorem events_step {g h : Growth} {e : Event} (hstep : g.step e = .ok h) :
    h.events = g.events ++ [e] := by
  unfold step at hstep
  split at hstep
  · rename_i b
    split at hstep
    · cases hstep
      simp [enter, events, outerEvents, Forest.reverse, Forest.reverseOnto, Forest.events]
    · unfold leave at hstep
      split at hstep
      · cases hstep
      · split at hstep
        · cases hstep
          rename_i o outer hopened _
          simp [events, hopened, outerEvents]
        · cases hstep
  · cases hstep
    simp [events]

theorem events_run {g h : Growth} {es : List Event} (hrun : g.run es = .ok h) :
    h.events = g.events ++ es := by
  induction es generalizing g with
  | nil => cases hrun; simp
  | cons e es ih =>
    simp only [run, List.foldlM_cons] at hrun
    cases hstep : g.step e with
    | error v => rw [hstep] at hrun; cases hrun
    | ok g' =>
      rw [hstep] at hrun
      rw [ih hrun, events_step hstep]
      simp

end Growth

theorem Forest.events_ofEvents {es : List Event} {f : Forest} (h : ofEvents es = .ok f) :
    f.events = es := by
  unfold ofEvents at h
  cases hrun : Growth.start.run es with
  | error v => rw [hrun] at h; cases h
  | ok g =>
    rw [hrun] at h
    cases h
    rw [Growth.events_forest, Growth.events_run hrun]
    rfl

end ParseLog
