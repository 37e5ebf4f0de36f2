import ParseLog.Violation
/-!
# Values

A value records that a variable holds a datum from its place on the log on. The datum of a single
variable may be of the wrong type, which is noticed when the value is read; a multi-variable always
holds a set of symbols. Main statement: intersecting two values keeps exactly their common symbols.
-/

namespace ParseLog
set_option autoImplicit false

structure Value where
  var : Variable
  datum : Datum
  set_of_multi : var.isMulti = true → datum.symbols?.isSome = true
  deriving DecidableEq

namespace Variable

/-- The fault of `v` holding `datum`. -/
def mismatch (v : Variable) (datum : Datum) : Violation :=
  .wrongType v.name.text v.type.name datum.render

/-- A multi-variable bound to the empty set. -/
def emptySet? (v : Variable) : Option Value :=
  if v.isMulti then some ⟨v, .symbols ∅, fun _ => rfl⟩ else none

end Variable

namespace Value

/-- The value, if the type of the variable admits the datum. -/
def make (v : Variable) (datum : Datum) : Except Violation Value :=
  if h : v.type.admits datum = true then
    .ok ⟨v, datum, fun hmulti => by
      obtain ⟨e, he⟩ := Variable.type_of_multi hmulti
      exact ValueType.isSome_symbols?_of_admits (he ▸ h)⟩
  else .error (v.mismatch datum)

/-- A value of a single variable, whatever its type. -/
def unchecked (name : DottedName) (type : ValueType) (datum : Datum) : Value :=
  ⟨⟨name, .single type⟩, datum, fun h => nomatch h⟩

def isOf (a : Value) (v : Variable) : Bool := a.var = v

/-- The datum, checked once more against the type of the value's own variable. -/
def recheck (a : Value) : Except Violation Datum :=
  if a.var.type.admits a.datum then .ok a.datum else .error (a.var.mismatch a.datum)

/-- The value of the same multi-variable that holds the symbols common to both. -/
def inter (a b : Value) : Except Violation Value :=
  match a.datum, b.datum with
  | .symbols s, .symbols t =>
    if a.var.isMulti && a.var = b.var then .ok ⟨a.var, .symbols (s.inter t), fun _ => rfl⟩
    else .error (.wrongType a.var.name.text (a.var.render .long) (b.var.render .long))
  | .symbols _, culprit => .error (a.var.mismatch culprit)
  | culprit, _ => .error (a.var.mismatch culprit)

theorem inter_eq_ok_iff {a b c : Value} :
    a.inter b = .ok c ↔ ∃ s t, a.datum = .symbols s ∧ b.datum = .symbols t ∧
      a.var.isMulti = true ∧ b.var = a.var ∧ c.var = a.var ∧ c.datum = .symbols (s.inter t) := by
  unfold inter
  split
  · rename_i s t hs ht
    split
    · rename_i hvar
      simp only [Bool.and_eq_true, decide_eq_true_eq] at hvar
      constructor
      · intro h
        cases h
        exact ⟨s, t, hs, ht, hvar.1, hvar.2.symm, rfl, rfl⟩
      · rintro ⟨s', t', hs', ht', -, -, hc, hd⟩
        obtain rfl : s = s' := by simpa [hs] using hs'
        obtain rfl : t = t' := by simpa [ht] using ht'
        cases c
        simp_all
    · rename_i hvar
      simp only [Bool.and_eq_true, decide_eq_true_eq] at hvar
      constructor
      · nofun
      · rintro ⟨_, _, -, -, hmulti, heq, -⟩
        exact absurd ⟨hmulti, heq.symm⟩ hvar
  · rename_i hb
    constructor
    · nofun
    · rintro ⟨_, t, -, ht, -⟩
      exact absurd ht (hb t)
  · rename_i ha _
    constructor
    · nofun
    · rintro ⟨s, _, hs, -⟩
      exact absurd hs (ha s)

def render (a : Value) : String :=
  a.var.name.text ++ " = " ++ a.datum.render

end Value

end ParseLog
