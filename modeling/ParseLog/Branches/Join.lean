import ParseLog.Branches.Merge
import ParseLog.Input
/-!
# Joining branches

Branches join if they stopped at the same input and their logs can be merged. The inputs are
compared first.
-/

namespace ParseLog
set_option autoImplicit false

/-- The one input at which all branches stopped. -/
def jointInput : List Input → Except JoinError Input
  | [] => .error .nothingToJoin
  | first :: others =>
    match others.find? (· ≠ first) with
    | some other => .error (.differentInputs first.render other.render)
    | none => .ok first

/-- Joins branches, each a log with the input at which it stopped. -/
def join (branches : List (Log × Input)) : Except JoinError (Log × Input) := do
  let input ← jointInput (branches.map (·.2))
  let log ← jointLog (branches.map (·.1))
  return (log, input)

end ParseLog
