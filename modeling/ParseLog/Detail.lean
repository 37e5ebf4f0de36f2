/-!
# Levels of detail in a rendering
-/

namespace ParseLog
set_option autoImplicit false

/-- How much a rendering tells; only the long one gives the type of a variable. -/
inductive Detail where
  | brief
  | short
  | long
  deriving DecidableEq

end ParseLog
