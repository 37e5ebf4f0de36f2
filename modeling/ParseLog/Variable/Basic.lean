import ParseLog.Detail
import ParseLog.DottedName
import ParseLog.Variable.Datum
/-!
# Variables

A variable is a name with a type, never a container: its current value is found on the log. A
multi-variable holds a set of symbols, and joining branches intersects its sets.
-/

namespace ParseLog
set_option autoImplicit false

inductive Multiplicity where
  /-- Branches have to agree on the value. -/
  | single (type : ValueType)
  /-- Branches contribute sets of symbols, which are intersected. -/
  | multi (e : Enumeration)
  deriving DecidableEq

structure Variable where
  name : DottedName
  multiplicity : Multiplicity
  deriving DecidableEq

namespace Variable

def type (v : Variable) : ValueType :=
  match v.multiplicity with
  | .single t => t
  | .multi e => .symbols e

def isMulti (v : Variable) : Bool :=
  match v.multiplicity with
  | .single _ => false
  | .multi _ => true

theorem type_of_multi {v : Variable} (h : v.isMulti = true) : ∃ e, v.type = .symbols e := by
  unfold isMulti at h
  unfold type
  split at h
  · contradiction
  · simp

def render (v : Variable) : Detail → String
  | .long => v.name.text ++ " : " ++ v.type.name
  | _ => v.name.text

end Variable

end ParseLog
