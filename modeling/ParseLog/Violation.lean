import ParseLog.Event.Bracket
import ParseLog.Event.Marker
/-!
# Violations

A violation is a fault of whoever wrote the log. That a branch does not match is none: such a branch
is rolled back.
-/

namespace ParseLog
set_option autoImplicit false

inductive Violation where
  /-- The speculation to resolve was never begun. -/
  | noSuchMarker (m : Marker)
  /-- A lookahead was to be kept, and it can only be undone. -/
  | lookaheadKept
  /-- A right bracket met no open left bracket of its region. -/
  | strayRight (b : Bracket)
  /-- A node of a forest was put into a second body. -/
  | adoptedTwice (node : Nat)
  /-- The root of a forest was put into a body. -/
  | rootAdopted
  /-- A variable holds what its type does not admit. -/
  | wrongType (holder expected found : String)
  deriving DecidableEq

def Violation.message : Violation → String
  | noSuchMarker m => "internal error: " ++ m.render ++ " not on output"
  | lookaheadKept => "internal error: lookahead marker committed instead of rolled back"
  | strayRight b => "internal error: orphaned right side " ++ b.render .long
  | adoptedTwice node => "internal error: node #" ++ toString node ++ " already has a parent"
  | rootAdopted => "internal error: root cannot have a parent"
  | wrongType holder expected found =>
    "internal error: " ++ holder ++ " holds " ++ found ++ ", not a " ++ expected

end ParseLog
