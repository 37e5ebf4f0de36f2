import ParseLog.Log.Basic
/-!
# Positions

A position is a log together with the identity of each of its events. Logs that go on from one
position share its events, and two equal logs that were recorded apart are not the same position.
-/

namespace ParseLog
set_option autoImplicit false

structure Position where
  log : Log
  /-- A serial number for each event, the most recent first. -/
  serials : List Nat

namespace Position

def empty : Position := ⟨∅, []⟩

/-- Whether the positions have the same most recent event; empty positions are all the same. -/
def same (p q : Position) : Bool := p.serials.head? = q.serials.head?

/-- The position of `log` if its `added` most recent events are new, with serial numbers from
`fresh` on, and the others are the oldest events of `p`. -/
def derive (p : Position) (log : Log) (added fresh : Nat) : Position :=
  let shared := log.length - added
  ⟨log, (List.range' fresh added).reverse ++ p.serials.drop (p.serials.length - shared)⟩

end Position

end ParseLog
