import ParseLog.Proofs.Log.Typing
/-!
# Meets of values

The intersection of two values is read through membership: it holds a symbol exactly if both do. It
exists exactly for two values of one multi-variable, so its laws are those of conjunction.
-/

namespace ParseLog
set_option autoImplicit false

namespace Value

/-- Whether `m` is a value of one multi-variable with `a` and `b` and holds what both hold. -/
structure IsMeet (a b m : Value) : Prop where
  multi : m.var.isMulti = true
  left : a.var = m.var
  right : b.var = m.var
  mem_iff : ∀ s, s ∈ m.symbols ↔ s ∈ a.symbols ∧ s ∈ b.symbols

section Meet
variable {a b c m : Value}

theorem symbols_of_datum {set : SortedSet Symbol} (h : a.datum = .symbols set) : a.symbols = set := by
  rw [symbols, h]
  rfl

theorem inter_eq_ok_iff_isMeet : a.inter b = .ok m ↔ IsMeet a b m := by
  rw [inter_eq_ok_iff]
  constructor
  · rintro ⟨s, t, hs, ht, hmulti, hb, hm, hdatum⟩
    refine ⟨hm ▸ hmulti, hm.symm, hb.trans hm.symm, fun x => ?_⟩
    rw [symbols_of_datum hdatum, symbols_of_datum hs, symbols_of_datum ht, SortedSet.mem_inter]
  · intro h
    have ha : a.var.isMulti = true := h.left ▸ h.multi
    have hb : b.var.isMulti = true := h.right ▸ h.multi
    have hset : m.symbols = a.symbols.inter b.symbols := SortedSet.ext_mem fun s => by
      rw [h.mem_iff, SortedSet.mem_inter]
    refine ⟨a.symbols, b.symbols, datum_eq_symbols ha, datum_eq_symbols hb, ha,
      h.right.trans h.left.symm, h.left.symm, ?_⟩
    rw [datum_eq_symbols h.multi, hset]

theorem exists_isMeet (hmulti : a.var.isMulti = true) (hvar : a.var = b.var) :
    ∃ m, IsMeet a b m := by
  refine ⟨⟨a.var, .symbols (a.symbols.inter b.symbols), fun _ => rfl⟩, ?_⟩
  rw [← inter_eq_ok_iff_isMeet, inter_eq_ok_iff]
  exact ⟨_, _, datum_eq_symbols hmulti, datum_eq_symbols (hvar ▸ hmulti), hmulti, hvar.symm, rfl, rfl⟩

theorem exists_inter_iff :
    (∃ m, a.inter b = .ok m) ↔ a.datum.symbols?.isSome = true ∧ b.datum.symbols?.isSome = true ∧
      a.var = b.var ∧ a.var.isMulti = true := by
  constructor
  · rintro ⟨m, hm⟩
    have h := inter_eq_ok_iff_isMeet.mp hm
    have ha : a.var.isMulti = true := h.left ▸ h.multi
    have hvar : a.var = b.var := h.left.trans h.right.symm
    exact ⟨a.set_of_multi ha, b.set_of_multi (hvar ▸ ha), hvar, ha⟩
  · rintro ⟨-, -, hvar, hmulti⟩
    obtain ⟨m, hm⟩ := exists_isMeet hmulti hvar
    exact ⟨m, inter_eq_ok_iff_isMeet.mpr hm⟩

theorem inter_eq_error {err : Violation} (h : a.inter b = .error err) :
    ∃ expected found, err = .wrongType a.var.name.text expected found := by
  unfold inter at h
  split at h
  · split at h
    · cases h
    · exact ⟨_, _, (Except.error.inj h).symm⟩
  · exact ⟨_, _, (Except.error.inj h).symm⟩
  · exact ⟨_, _, (Except.error.inj h).symm⟩

theorem IsMeet.symm (h : IsMeet a b m) : IsMeet b a m :=
  ⟨h.multi, h.right, h.left, fun s => (h.mem_iff s).trans and_comm⟩

theorem IsMeet.within (h : IsMeet a b m) : m.Within a :=
  .inr ⟨h.left.symm, h.multi, fun s hs => ((h.mem_iff s).mp hs).1⟩

theorem isMeet_self (hmulti : a.var.isMulti = true) : IsMeet a a a :=
  ⟨hmulti, rfl, rfl, fun _ => (and_self_iff).symm⟩

theorem isMeet_empty {empty : Value} (h : a.var.emptySet? = some empty) : IsMeet a empty empty := by
  obtain ⟨hmulti, hempty⟩ := Option.ite_none_right_eq_some.mp h
  cases hempty
  refine ⟨hmulti, rfl, rfl, fun s => ?_⟩
  simp [symbols, Datum.symbols?]

theorem inter_comm : a.inter b = .ok m ↔ b.inter a = .ok m := by
  rw [inter_eq_ok_iff_isMeet, inter_eq_ok_iff_isMeet]
  exact ⟨IsMeet.symm, IsMeet.symm⟩

/-- A meet of three values, in whichever way it is taken, holds what all three hold. -/
theorem inter_bind_iff : (a.inter b).bind (·.inter c) = .ok m ↔
    m.var.isMulti = true ∧ a.var = m.var ∧ b.var = m.var ∧ c.var = m.var ∧
      ∀ s, s ∈ m.symbols ↔ s ∈ a.symbols ∧ s ∈ b.symbols ∧ s ∈ c.symbols := by
  constructor
  · intro h
    cases hab : a.inter b with
    | error err => rw [hab] at h; cases h
    | ok ab =>
      rw [hab] at h
      have hfirst := inter_eq_ok_iff_isMeet.mp hab
      have hsecond := inter_eq_ok_iff_isMeet.mp h
      refine ⟨hsecond.multi, hfirst.left.trans hsecond.left, hfirst.right.trans hsecond.left,
        hsecond.right, fun s => ?_⟩
      rw [hsecond.mem_iff, hfirst.mem_iff, and_assoc]
  · rintro ⟨hmulti, ha, hb, hc, hmem⟩
    obtain ⟨ab, hab⟩ := exists_isMeet (ha ▸ hmulti) (ha.trans hb.symm)
    rw [inter_eq_ok_iff_isMeet.mpr hab]
    refine inter_eq_ok_iff_isMeet.mpr ⟨hmulti, hab.left.symm.trans ha, hc, fun s => ?_⟩
    rw [hmem, hab.mem_iff, and_assoc]

theorem inter_assoc :
    (a.inter b).bind (·.inter c) = .ok m ↔ (b.inter c).bind (a.inter ·) = .ok m := by
  have hswap : (b.inter c).bind (a.inter ·) = .ok m ↔ (b.inter c).bind (·.inter a) = .ok m := by
    cases b.inter c with
    | error err => rfl
    | ok bc => exact inter_comm
  rw [hswap, inter_bind_iff, inter_bind_iff]
  grind

end Meet

/-- Two values have an intersection exactly if both hold sets of symbols and both are of one
multi-variable. It is then the value of that variable with the symbols that both sets have. Where it
is defined it is a meet: commutative, associative and idempotent, and the empty set absorbs. Its type
is right if that of either value is. -/
theorem inter_is_meet (a b c : Value) (v : Variable) :
    ((∃ m, a.inter b = .ok m) ↔ a.datum.symbols?.isSome = true ∧ b.datum.symbols?.isSome = true ∧
      a.var = b.var ∧ a.var.isMulti = true) ∧
    (∀ err, a.inter b = .error err →
      ∃ expected found, err = .wrongType a.var.name.text expected found) ∧
    (∀ m, a.inter b = .ok m → m.var = a.var ∧ ∃ s t u, a.datum = .symbols s ∧
      b.datum = .symbols t ∧ m.datum = .symbols u ∧ ∀ x, x ∈ u ↔ x ∈ s ∧ x ∈ t) ∧
    (∀ m, a.inter b = .ok m ↔ b.inter a = .ok m) ∧
    (∀ m, (a.inter b).bind (·.inter c) = .ok m ↔ (b.inter c).bind (a.inter ·) = .ok m) ∧
    (a.inter a = .ok a ↔ a.var.isMulti = true) ∧
    (∀ empty, a.var.emptySet? = some empty →
      a.inter empty = .ok empty ∧ empty.inter a = .ok empty) ∧
    (∀ m, a.inter b = .ok m →
      a.var.type.admits a.datum = true ∨ b.var.type.admits b.datum = true →
        m.var.type.admits m.datum = true) ∧
    (a.var = v → v.inter a b = a.inter b) ∧
    (a.var ≠ v → v.inter a b = .error (v.mismatch a.datum)) ∧
    ∀ name e, (⟨name, .multi e⟩ : Variable).emptySet? = some (Variable.recordMembers name e []) := by
  refine ⟨exists_inter_iff, fun err => inter_eq_error, fun m hm => ?_, fun m => inter_comm,
    fun m => inter_assoc, ⟨fun h => ?_, fun h => ?_⟩, fun empty h => ?_, fun m hm htyped => ?_,
    fun h => ?_, fun h => ?_, fun name e => rfl⟩
  · obtain ⟨s, t, hs, ht, -, -, hvar, hdatum⟩ := inter_eq_ok_iff.mp hm
    exact ⟨hvar, s, t, s.inter t, hs, ht, hdatum, fun x => SortedSet.mem_inter⟩
  · exact (inter_eq_ok_iff_isMeet.mp h).multi
  · exact inter_eq_ok_iff_isMeet.mpr (isMeet_self h)
  · have hmeet := isMeet_empty h
    exact ⟨inter_eq_ok_iff_isMeet.mpr hmeet, inter_eq_ok_iff_isMeet.mpr hmeet.symm⟩
  · have hmeet := inter_eq_ok_iff_isMeet.mp hm
    rcases htyped with ha | hb
    · exact WellTyped.within ha hmeet.within
    · exact WellTyped.within hb hmeet.symm.within
  · exact if_pos (decide_eq_true h)
  · exact if_neg (by simpa [isOf] using h)

/-! ### A set with a symbol that is no member -/

namespace Restriction

def kinds : Enumeration := ⟨"PathKind", "uri", ["Absolute", "Relative", "Opaque"]⟩

def absolute : Symbol := ⟨kinds, 0, "Absolute"⟩

def relative : Symbol := ⟨kinds, 1, "Relative"⟩

def stray : Symbol := ⟨kinds, 1, "Opaque"⟩

def paths : Variable := ⟨⟨"paths", by decide +kernel⟩, .multi kinds⟩

def holding (symbols : List Symbol) : Value := ⟨paths, .symbols (.ofList symbols), fun _ => rfl⟩

end Restriction

open Restriction in
theorem inter_is_meet_stray :
    (holding [relative, absolute]).inter (holding [stray, relative]) = .ok (holding [relative]) ∧
      (holding [stray, relative]).inter (holding [relative, absolute]) = .ok (holding [relative]) ∧
      paths.type.admits (holding [stray, relative]).datum = false ∧
      paths.type.admits (holding [relative]).datum = true ∧
      paths.inter (holding [absolute]) (holding [stray]) = .ok (holding []) := by
  have hmeet : (holding [relative, absolute]).inter (holding [stray, relative]) =
      .ok (holding [relative]) := by decide +kernel
  obtain ⟨-, -, -, hcomm, -, -, -, htyped, -⟩ := inter_is_meet (holding [relative, absolute])
    (holding [stray, relative]) (holding []) paths
  exact ⟨hmeet, (hcomm _).mp hmeet, by decide +kernel,
    htyped _ hmeet (.inl (by decide +kernel)), by decide +kernel⟩

end Value

end ParseLog
