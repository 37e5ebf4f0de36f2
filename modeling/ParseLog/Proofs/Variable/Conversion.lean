import ParseLog.Proofs.Log.Typing
/-!
# Reading and writing at a type

What a type admits is what can be read at it, and reading undoes writing and is undone by it. For sets
of symbols this needs every member to have a symbol of its own, so an enumeration may have no more
members than a symbol has indices.
-/

namespace ParseLog
set_option autoImplicit false

theorem Enumeration.symbol_injective {e : Enumeration} (h : e.members.length ≤ 65536) :
    Function.Injective e.symbol := by
  intro m n heq
  have hm := member?_symbol h m
  rw [heq, member?_symbol h n] at hm
  exact (Option.some.inj hm).symm

namespace ValueType

theorem admits_iff_exists_read? {t : ValueType} {d : Datum} :
    t.admits d = true ↔ ∃ x, t.read? d = some x := by
  rw [← isSome_read?, Option.isSome_iff_exists]

theorem mem_symbols_write {e : Enumeration} (h : e.members.length ≤ 65536)
    {ms : SortedSet e.Member} {m : e.Member} :
    e.symbol m ∈ SortedSet.ofList (ms.toList.map e.symbol) ↔ m ∈ ms := by
  rw [SortedSet.mem_ofList, List.mem_map_of_injective (Enumeration.symbol_injective h),
    SortedSet.mem_iff]

section Small
variable {t : ValueType} (h : ∀ e, t = .symbol e ∨ t = .symbols e → e.members.length ≤ 65536)
include h

theorem write_injective : Function.Injective t.write := by
  intro x y heq
  cases t with
  | unit => rfl
  | bool => exact Datum.bool.inj heq
  | int => exact Datum.int.inj heq
  | text => exact Datum.text.inj heq
  | symbol e => exact Enumeration.symbol_injective (h e (.inl rfl)) (Datum.symbol.inj heq)
  | symbols e =>
    have hsets := Datum.symbols.inj heq
    refine SortedSet.ext_mem fun m => ?_
    rw [← mem_symbols_write (h e (.inr rfl)), hsets, mem_symbols_write (h e (.inr rfl))]

theorem read?_write (x : t.Carrier) : t.read? (t.write x) = some x := by
  obtain ⟨y, hy⟩ := admits_iff_exists_read?.mp (admits_write (indexed_of_length x h))
  rw [hy, write_injective h (write_of_read? hy)]

end Small

end ValueType

namespace Variable
variable {v : Variable} {a : Value}

/-- A value of a variable of the same type is read by its datum alone. -/
theorem read_of_type_eq (h : a.var.type = v.type) :
    v.read a = match v.type.read? a.datum with
      | some x => .ok x
      | none => .error (a.var.mismatch a.datum) := by
  unfold read Value.recheck
  cases hx : v.type.read? a.datum with
  | some x =>
    have hadmits : a.var.type.admits a.datum = true := by
      rw [h, ValueType.admits_iff_exists_read?]
      exact ⟨x, hx⟩
    simp [hadmits, hx, bind, Except.bind]
  | none =>
    have hadmits : a.var.type.admits a.datum = false := by
      rw [h, ← ValueType.isSome_read?, hx]
      rfl
    simp [hadmits, bind, Except.bind]

end Variable

/-- A type admits exactly the data that can be read at it. Writing what was read gives the datum back,
and reading what was written gives the thing back. So a value of the type of a variable cannot be read
exactly if its datum is not admitted, and this is then the fault. -/
theorem ValueType.read?_matches_admits (t : ValueType) :
    (∀ d, t.admits d = true ↔ ∃ x, t.read? d = some x) ∧
    (∀ d x, t.read? d = some x → t.write x = d) ∧
    ((∀ e, t = .symbol e ∨ t = .symbols e → e.members.length ≤ 65536) →
      ∀ x, t.read? (t.write x) = some x) ∧
    ∀ (v : Variable) (a : Value), v.type = t → a.var.type = t →
      (∀ x, v.read a = .ok x ↔ v.type.read? a.datum = some x) ∧
      ((∃ err, v.read a = .error err) ↔ t.admits a.datum = false) ∧
      ∀ err, v.read a = .error err →
        err = .wrongType a.var.name.text t.name a.datum.render := by
  refine ⟨fun d => admits_iff_exists_read?, fun d x => write_of_read?, read?_write, ?_⟩
  rintro v a rfl htype
  rw [Variable.read_of_type_eq htype, ← isSome_read?]
  cases hread : v.type.read? a.datum with
  | some x => simp
  | none => simp [Variable.mismatch, htype]

/-! ### A set with a symbol of the wrong name -/

namespace Slash

def slash : Enumeration := ⟨"SlashIs", "script", ["Regex", "DivOp", "DontCare"]⟩

def division : Variable := ⟨⟨"division", by decide +kernel⟩, .single (.symbols slash)⟩

def notDivision : SortedSet slash.Member := .ofList [⟨2, by decide⟩, ⟨0, by decide⟩]

def misnamed : Value :=
  .unchecked division.name (.symbols slash)
    (.symbols (.ofList [⟨slash, 1, "DivOp"⟩, ⟨slash, 0, "DontCare"⟩]))

end Slash

open Slash in
theorem ValueType.read?_matches_admits_misnamed :
    (symbols slash).read? ((symbols slash).write notDivision) = some notDivision ∧
      (symbols slash).admits misnamed.datum = false ∧
      ∃ err, division.read misnamed = .error err ∧
        err.message = "internal error: division holds (DontCare, DivOp), not a SlashIs*" := by
  obtain ⟨-, -, hwritten, hread⟩ := read?_matches_admits (symbols slash)
  have hsmall : ∀ e, symbols slash = .symbol e ∨ symbols slash = .symbols e →
      e.members.length ≤ 65536 := by
    rintro e (h | h) <;> cases h
    decide
  have hadmits : (symbols slash).admits misnamed.datum = false := by decide +kernel
  obtain ⟨-, hfails, hfault⟩ := hread division misnamed rfl rfl
  obtain ⟨err, herr⟩ := hfails.mpr hadmits
  refine ⟨hwritten hsmall notDivision, hadmits, err, herr, ?_⟩
  rw [hfault err herr]
  decide +kernel

end ParseLog
