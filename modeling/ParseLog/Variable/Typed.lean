import ParseLog.Variable.Value
/-!
# Typed access to variables

Each value type has a carrier, the type of the things that its data stand for. Main statements: a
datum can be read at a type exactly when the type admits it, and then writing gives it back.
-/

namespace ParseLog
set_option autoImplicit false

namespace ValueType

abbrev Carrier : ValueType → Type
  | unit => Unit
  | bool => Bool
  | int => Int64
  | text => String
  | symbol e => e.Member
  | symbols e => SortedSet e.Member

def write : (t : ValueType) → t.Carrier → Datum
  | unit, () => .unit
  | bool, b => .bool b
  | int, n => .int n
  | text, s => .text s
  | symbol e, m => .symbol (e.symbol m)
  | symbols e, ms => .symbols (SortedSet.ofList (ms.toList.map e.symbol))

def read? : (t : ValueType) → Datum → Option t.Carrier
  | unit, .unit => some ()
  | bool, .bool b => some b
  | int, .int n => some n
  | text, .text s => some s
  | symbol e, .symbol s => e.member? s
  | symbols e, .symbols s => (s.toList.mapM e.member?).map SortedSet.ofList
  | _, _ => none

/-- The members that symbols stand for, if each stands for one, are written as the same symbols. -/
theorem map_symbol_of_mapM_member? {e : Enumeration} {l : List Symbol} {ms : List e.Member}
    (h : l.mapM e.member? = some ms) : ms.map e.symbol = l := by
  induction l generalizing ms with
  | nil => cases h; rfl
  | cons s l ih =>
    simp only [List.mapM_cons, Option.bind_eq_bind, Option.bind_eq_some_iff, Option.pure_def,
      Option.some.injEq] at h
    obtain ⟨m, hm, ms', hms, rfl⟩ := h
    simp [Enumeration.symbol_of_member? hm, ih hms]

theorem isSome_mapM_member? {e : Enumeration} {l : List Symbol} :
    (l.mapM e.member?).isSome = l.all e.contains := by
  induction l with
  | nil => rfl
  | cons s l ih =>
    rw [List.all_cons, ← ih, ← Enumeration.member?_isSome]
    cases hs : e.member? s <;> cases hl : l.mapM e.member? <;> simp [List.mapM_cons, hs, hl]

theorem isSome_read? (t : ValueType) (d : Datum) : (t.read? d).isSome = t.admits d := by
  unfold read? admits
  split <;> simp_all [Enumeration.member?_isSome, isSome_mapM_member?]

theorem write_of_read? {t : ValueType} {d : Datum} {x : t.Carrier} (h : t.read? d = some x) :
    t.write x = d := by
  cases t <;> cases d <;> simp only [read?, reduceCtorEq, Option.some.injEq, Option.map_eq_some_iff] at h
  case unit.unit => rfl
  case bool.bool => rw [write, h]
  case int.int => rw [write, h]
  case text.text => rw [write, h]
  case symbol.symbol => rw [write, Enumeration.symbol_of_member? h]
  case symbols.symbols s =>
    obtain ⟨ms, hms, rfl⟩ := h
    rw [write]
    congr 1
    refine SortedSet.ext_mem fun a => ?_
    rw [SortedSet.mem_ofList, SortedSet.mem_iff, ← map_symbol_of_mapM_member? hms]
    simp [← SortedSet.mem_iff]

end ValueType

namespace Variable

theorem symbols?_write_of_multi {v : Variable} (h : v.isMulti = true) (x : v.type.Carrier) :
    (v.type.write x).symbols?.isSome = true := by
  obtain ⟨e, he⟩ := type_of_multi h
  revert x
  rw [he]
  exact fun _ => rfl

/-- The value of `v` that stands for `x`. -/
def record (v : Variable) (x : v.type.Carrier) : Value :=
  ⟨v, v.type.write x, fun h => symbols?_write_of_multi h x⟩

/-- The set of a multi-variable with exactly these members. -/
def recordMembers (name : DottedName) (e : Enumeration) (members : List e.Member) : Value :=
  record ⟨name, .multi e⟩ (SortedSet.ofList members)

/-- Reads a value at the type of `v`, after a check against the type of its own variable. -/
def read (v : Variable) (a : Value) : Except Violation v.type.Carrier := do
  let datum ← a.recheck
  match v.type.read? datum with
  | some x => .ok x
  | none => .error (v.mismatch datum)

/-- The intersection of two values, the first of which must be one of `v`. -/
def inter (v : Variable) (a b : Value) : Except Violation Value :=
  if a.isOf v then a.inter b else .error (v.mismatch a.datum)

end Variable

end ParseLog
