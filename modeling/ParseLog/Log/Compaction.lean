import ParseLog.Forest.Growth
import ParseLog.Forest.Liveness
/-!
# Compaction

A compact log keeps what can still influence the parse: dead values go, closed regions give way to
their bodies, and in each body the values come first, by the names of their variables. Events that
meet in this way coalesce.
-/

namespace ParseLog
set_option autoImplicit false

def insertByName (a : Value) : List Value → List Value
  | [] => [a]
  | b :: l => if (compare a.var.name b.var.name).isLE then a :: b :: l else b :: insertByName a l

/-- Sorts by the names of the variables; values of one name keep their order. -/
def sortByName (values : List Value) : List Value := values.foldr insertByName []

namespace Forest

/-- The values among the siblings that can still be read. -/
def liveValues (outer : List Frame) : Forest → List Value
  | nil => []
  | leaf (.value a) later =>
    if isLive a.var later outer then a :: liveValues outer later else liveValues outer later
  | leaf _ later => liveValues outer later
  | region _ _ _ later => liveValues outer later

/-- What is kept of the siblings other than values, with `after` behind it. A region keeps its left
bracket if it is open; its body is kept with the live values in front. -/
def keptOnto (outer : List Frame) (after : List Event) : Forest → List Event
  | nil => after
  | leaf e later =>
    if e.isValue then keptOnto outer after later else e :: keptOnto outer after later
  | region left body right later =>
    let inner := ⟨left, right, later⟩ :: outer
    let kept := (sortByName (liveValues inner body)).map Event.value ++
      keptOnto inner (keptOnto outer after later) body
    if right.isNone then .bracket left :: kept else kept

/-- What is kept of the siblings other than values. -/
def keptEvents (outer : List Frame) (f : Forest) : List Event := keptOnto outer [] f

/-- The events that compaction keeps, in order, before they coalesce. -/
def compactEvents (f : Forest) : List Event :=
  (sortByName (liveValues [] f)).map Event.value ++ keptEvents [] f

theorem keptOnto_eq_append (outer : List Frame) (after : List Event) (f : Forest) :
    keptOnto outer after f = keptEvents outer f ++ after := by
  unfold keptEvents
  induction f generalizing outer after with
  | nil => rfl
  | leaf e later ih =>
    simp only [keptOnto]
    rw [ih outer after]
    split <;> simp
  | region left body right later ihb ihl =>
    simp only [keptOnto]
    rw [ihb _ (keptOnto outer after later), ihb _ (keptOnto outer [] later), ihl outer after]
    split <;> simp

@[simp] theorem keptEvents_nil (outer : List Frame) : keptEvents outer nil = [] := rfl

theorem keptEvents_leaf (outer : List Frame) (e : Event) (later : Forest) :
    keptEvents outer (leaf e later) =
      if e.isValue then keptEvents outer later else e :: keptEvents outer later := rfl

theorem keptEvents_region (outer : List Frame) (left : Bracket) (body : Forest)
    (right : Option Bracket) (later : Forest) :
    keptEvents outer (region left body right later) =
      (if right.isNone then [.bracket left] else []) ++
        (((sortByName (liveValues (⟨left, right, later⟩ :: outer) body)).map Event.value ++
            keptEvents (⟨left, right, later⟩ :: outer) body) ++ keptEvents outer later) := by
  unfold keptEvents
  simp only [keptOnto]
  rw [keptOnto_eq_append _ (keptOnto _ _ _)]
  unfold keptEvents
  split <;> simp

end Forest

/-- The log with only the events that still matter; fails where the brackets do not match. -/
def Log.compact (l : Log) : Except Violation Log :=
  l.forest.map fun f => absorbAll ∅ f.compactEvents

theorem Log.compact_eq_ok_iff {l c : Log} :
    l.compact = .ok c ↔ ∃ f, l.forest = .ok f ∧ c = absorbAll ∅ f.compactEvents := by
  unfold compact
  cases l.forest <;> simp [Except.map, eq_comm]

theorem Log.compact_eq_error_iff {l : Log} {v : Violation} :
    l.compact = .error v ↔ l.forest = .error v := by
  unfold compact
  cases l.forest <;> simp [Except.map]

end ParseLog
