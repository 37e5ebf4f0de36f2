import ParseLog.Event.Basic
/-!
# Forests of regions

A forest shows the nesting that brackets describe. A region whose right bracket has not been
recorded yet is open, and everything recorded since lies in its body.
-/

namespace ParseLog
set_option autoImplicit false

/-- Siblings in order, each a single event or a region with its body. -/
inductive Forest where
  | nil
  | leaf (e : Event) (later : Forest)
  | region (left : Bracket) (body : Forest) (right : Option Bracket) (later : Forest)
  deriving DecidableEq

namespace Forest

/-- The events that the forest stands for, in order. -/
def events : Forest → List Event
  | nil => []
  | leaf e later => e :: later.events
  | region left body right later =>
    .bracket left :: (body.events ++ (right.toList.map Event.bracket ++ later.events))

/-- The number of nodes. -/
def size : Forest → Nat
  | nil => 0
  | leaf _ later => later.size + 1
  | region _ body _ later => body.size + later.size + 1

def isEmpty : Forest → Bool
  | nil => true
  | _ => false

/-- The siblings in reverse order before `f`; their bodies stay as they are. -/
def reverseOnto (f : Forest) : Forest → Forest
  | nil => f
  | leaf e later => reverseOnto (leaf e f) later
  | region left body right later => reverseOnto (region left body right f) later

def reverse (f : Forest) : Forest := reverseOnto nil f

/-- Whether a value of `v` stands anywhere in the forest. -/
def sets (v : Variable) : Forest → Bool
  | nil => false
  | leaf e later => e.sets v || sets v later
  | region _ body _ later => sets v body || sets v later

theorem sets_iff {v : Variable} {f : Forest} :
    f.sets v = true ↔ ∃ e ∈ f.events, e.sets v = true := by
  induction f with
  | nil => simp [sets, events]
  | leaf e later ih => simp [sets, events, ih]
  | region left body right later ihb ihl =>
    cases right <;> simp [sets, events, ihb, ihl, Event.sets, or_and_right, exists_or]

end Forest

end ParseLog
