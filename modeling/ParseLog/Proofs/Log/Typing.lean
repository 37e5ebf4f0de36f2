import Mathlib.Data.List.Nodup
import ParseLog.Proofs.Log.Provenance
import ParseLog.Variable.Typed
import ParseLog.Log.Lookup
/-!
# Well-typed values

A value is made with a check, by writing a thing of the variable's type, or as the empty set of a
multi-variable. Nothing is checked when a thing is written. Its type admits what is written exactly if
the positions of all members in it fit into the index of a symbol, and then it can be read.
-/

namespace ParseLog
set_option autoImplicit false

namespace Enumeration
variable {e : Enumeration} {m : e.Member}

theorem contains_symbol (h : m.val < 65536) : e.contains (e.symbol m) = true := by
  have hindex : (e.symbol m).index.toNat = m.val := by
    simp [symbol, Nat.mod_eq_of_lt h]
  refine contains_iff.mpr ⟨rfl, ?_⟩
  rw [hindex]
  simp [symbol]

end Enumeration

namespace ValueType

/-- Whether all members to be written stand at positions that fit into the index of a symbol. -/
def Indexed : (t : ValueType) → t.Carrier → Prop
  | symbol _, m => m.val < 65536
  | symbols _, ms => ∀ m ∈ ms, m.val < 65536
  | _, _ => True

theorem indexed_of_length {t : ValueType} (x : t.Carrier)
    (h : ∀ e, t = .symbol e ∨ t = .symbols e → e.members.length ≤ 65536) : t.Indexed x := by
  cases t with
  | symbol e => exact Nat.lt_of_lt_of_le x.isLt (h e (.inl rfl))
  | symbols e => exact fun m _ => Nat.lt_of_lt_of_le m.isLt (h e (.inr rfl))
  | _ => trivial

theorem admits_write {t : ValueType} {x : t.Carrier} (h : t.Indexed x) :
    t.admits (t.write x) = true := by
  cases t with
  | symbol e => exact Enumeration.contains_symbol h
  | symbols e =>
    refine List.all_eq_true.mpr fun s hs => ?_
    obtain ⟨m, hm, rfl⟩ := List.mem_map.mp (SortedSet.mem_ofList.mp hs)
    exact Enumeration.contains_symbol (h m hm)
  | _ => rfl

end ValueType

namespace Value

/-- Whether the type of its variable admits what the value holds. -/
def WellTyped (a : Value) : Prop := a.var.type.admits a.datum = true

section WellTyped
variable {a b : Value}

theorem wellTyped_iff_of_multi {e : Enumeration} (h : a.var.multiplicity = .multi e) :
    a.WellTyped ↔ ∀ s ∈ a.symbols, e.contains s = true := by
  have hmulti : a.var.isMulti = true := by rw [Variable.isMulti, h]
  have htype : a.var.type = .symbols e := by rw [Variable.type, h]
  rw [WellTyped, htype, datum_eq_symbols hmulti]
  exact List.all_eq_true

theorem WellTyped.within (h : b.WellTyped) (hwithin : a.Within b) : a.WellTyped := by
  rcases hwithin with rfl | ⟨hvar, hmulti, hsub⟩
  · exact h
  · cases hm : a.var.multiplicity with
    | single t => simp [Variable.isMulti, hm] at hmulti
    | multi e =>
      have hb := (wellTyped_iff_of_multi (hvar ▸ hm)).mp h
      exact (wellTyped_iff_of_multi hm).mpr fun s hs => hb s (hsub s hs)

theorem WellTyped.recheck (h : a.WellTyped) : a.recheck = .ok a.datum := if_pos h

end WellTyped

end Value

namespace Log

/-- Whether all values on the log are well-typed. -/
def WellTyped (l : Log) : Prop := ∀ a, .value a ∈ l.recent → a.WellTyped

section WellTyped
variable {l : Log} (h : l.WellTyped) (v : Variable)
include h

end WellTyped

end Log

end ParseLog
