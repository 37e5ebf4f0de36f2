import ParseLog.Violation
/-!
# Failures of joining
-/

namespace ParseLog
set_option autoImplicit false

inductive JoinError where
  | nothingToJoin
  /-- Two branches stopped at different inputs, shown in order. -/
  | differentInputs (a b : String)
  /-- Two branches disagree for the reason given. -/
  | disagreement (reason a b : String)
  /-- The log of a branch is at fault. -/
  | violation (v : Violation)
  deriving DecidableEq

def JoinError.message : JoinError → String
  | nothingToJoin => "no branches to join"
  | differentInputs a b => "inputs cannot be reconciled : " ++ a ++ " != " ++ b
  | disagreement reason a b => reason ++ " : " ++ a ++ " != " ++ b
  | violation v => v.message

/-- A fault of a log as a failure of joining it. -/
def JoinError.lift {α : Type} : Except Violation α → Except JoinError α :=
  Except.mapError .violation

end ParseLog
