import ParseLog.Proofs.Log.Provenance
import ParseLog.Workspace.Command
/-!
# What a session leaves on its logs

A command stores at most one log, which it makes from the log it works on, or from logs of the
workspace that it joins. A session is a sequence of commands.
-/

namespace ParseLog
set_option autoImplicit false

section Entries
variable {α : Type} (entries : List (String × α)) (a : α) {name other : String}

end Entries

namespace Log
variable {l l' : Log} {m : Marker}

end Log

namespace Workspace
variable {w : Workspace}

end Workspace

/-- The events that a command adds as they are given. -/
def Command.added : Command → List Event
  | record es => es
  | append e => [e]
  | absorb e => [e]
  | appendMany e _ => [e]
  | _ => []

end ParseLog
