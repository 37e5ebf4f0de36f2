import ParseLog.Proofs.Branches.Sharing
import ParseLog.Proofs.Log.Resolving
/-!
# Where values come from

No operation on logs makes up a value. Only joining changes values: a joint value of a multi-variable
holds no symbol that the value in front of a branch did not hold.
-/

namespace ParseLog
set_option autoImplicit false

/-- Whether `a` is `b`, or `b` with some of its symbols left out. -/
def Value.Within (a b : Value) : Prop :=
  a = b ∨ a.var = b.var ∧ a.var.isMulti = true ∧ ∀ s ∈ a.symbols, s ∈ b.symbols

theorem Value.Within.refl (a : Value) : a.Within a := .inl rfl

variable {a : Value}

namespace Log
variable {l l' : Log}

end Log

namespace Pending

end Pending

end ParseLog
