/-!
# Markers

A marker stands on the log where speculative work began and goes away when the work is kept or
undone. Markers of one kind are interchangeable.
-/

namespace ParseLog
set_option autoImplicit false

inductive Marker where
  /-- One alternative of an ordered choice. -/
  | branch
  /-- An assertion without width, which is always undone. -/
  | lookahead
  /-- One round of a loop. -/
  | loop
  deriving DecidableEq, Ord

def Marker.render : Marker → String
  | branch => "\x7b/\x7d"
  | lookahead => "\x7b=\x7d"
  | loop => "\x7b+\x7d"

end ParseLog
