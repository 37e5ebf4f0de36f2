import ParseLog.Forest.Basic
/-!
# Which values can still be read

A value is dead once its scope has closed or a later value of its variable has been recorded before
the scope ends. The place of a node is given by the siblings after it and by the regions around it,
each with the siblings after it.
-/

namespace ParseLog
set_option autoImplicit false

/-- An enclosing region, seen from inside. -/
structure Frame where
  left : Bracket
  right : Option Bracket
  later : Forest

/-- Whether the innermost of the regions `outer` that is a scope of `v` is open, if there is one. -/
def scopeOpen (v : Variable) : List Frame → Bool
  | [] => true
  | f :: outer => if f.left.delimits v then f.right.isNone else scopeOpen v outer

/-- Whether `v` is set after a place, before the innermost scope of `v` around it ends. -/
def setLater (v : Variable) (later : Forest) : List Frame → Bool
  | [] => later.sets v
  | f :: outer => later.sets v || (!f.left.delimits v && setLater v f.later outer)

/-- Whether a value of `v` at this place can still be read. -/
def isLive (v : Variable) (later : Forest) (outer : List Frame) : Bool :=
  scopeOpen v outer && !setLater v later outer

end ParseLog
