import ParseLog.Text.Legible
/-!
# Names that are refused
-/

namespace ParseLog
set_option autoImplicit false

inductive NameError where
  /-- The text is not a dotted name. -/
  | notDotted (text : String)
  /-- No encoding goes by the name. -/
  | unknownEncoding (name : String)
  deriving DecidableEq

def NameError.message : NameError → String
  | .notDotted text => "invalid identifier " ++ Text.legible text
  | .unknownEncoding name => "unknown transform " ++ Text.legible name

end ParseLog
