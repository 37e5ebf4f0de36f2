import ParseLog.Log.Basic
import ParseLog.Variable.Typed
/-!
# Looking back in scope

A search looks back from the head for the last event in the current scope. It passes over the closed
scopes inside and ends at the left bracket of the innermost open one. Brackets that delimit the
scope are never found themselves.
-/

namespace ParseLog
set_option autoImplicit false

/-- The side of the event, if it is a bracket that delimits the scope. -/
def Event.scopeSide? (delimits : Bracket → Bool) : Event → Option Side
  | .bracket b => if delimits b then some b.side else none
  | _ => none

namespace Log

/-- `depth` counts the scopes entered backwards through their right brackets. -/
def lookBack (delimits : Bracket → Bool) (wanted : Event → Bool) : Nat → List Event → Option Event
  | _, [] => none
  | depth, e :: older =>
    match e.scopeSide? delimits, depth with
    | some .right, depth => lookBack delimits wanted (depth + 1) older
    | some .left, 0 => none
    | some .left, depth + 1 => lookBack delimits wanted depth older
    | none, 0 => if wanted e then some e else lookBack delimits wanted 0 older
    | none, depth + 1 => lookBack delimits wanted (depth + 1) older

/-- The most recent wanted event in the current scope. -/
def findInScope (l : Log) (delimits : Bracket → Bool) (wanted : Event → Bool) : Option Event :=
  lookBack delimits wanted 0 l.recent

/-- The value that `v` has at the head, checked against its type. -/
def binding (l : Log) (v : Variable) : Except Violation (Option Value) :=
  match l.findInScope (·.delimits v) (·.sets v) with
  | some (.value a) => a.recheck.map fun _ => some a
  | _ => .ok none

/-- What `v` holds at the head, read at its type. -/
def read (l : Log) (v : Variable) : Except Violation (Option v.type.Carrier) := do
  match ← l.binding v with
  | some a => some <$> v.read a
  | none => .ok none

end Log

end ParseLog
