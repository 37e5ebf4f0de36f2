import ParseLog.SortedSet
/-!
# Enumerations and their symbols

An enumeration is a closed list of named members. A symbol claims to be one of them by position and
name; the claim need not be true, and `contains` tells. Main statement: a symbol stands for a member
exactly when the enumeration contains it, and the member gives the symbol back.
-/

namespace ParseLog
set_option autoImplicit false

structure Enumeration where
  name : String
  /-- Where it was declared, which tells apart enumerations of one name. -/
  path : String
  members : List String
  deriving DecidableEq

namespace Enumeration

/-- By name, then path, then members. -/
instance : Ord Enumeration where
  compare := compareLex (compareOn name) (compareLex (compareOn path) (compareOn members))

instance : Std.TransOrd Enumeration :=
  inferInstanceAs (Std.TransCmp (compareLex _ _))

instance : Std.LawfulEqOrd Enumeration where
  eq_of_compare {a b} h := by
    obtain ⟨hname, h⟩ := compareLex_eq_eq.1 h
    obtain ⟨hpath, hmembers⟩ := compareLex_eq_eq.1 h
    have hname : a.name = b.name := Std.LawfulEqOrd.eq_of_compare hname
    have hpath : a.path = b.path := Std.LawfulEqOrd.eq_of_compare hpath
    have hmembers : a.members = b.members := Std.LawfulEqOrd.eq_of_compare hmembers
    cases a; cases b
    simp_all

/-- A member, as a position in the list of members. -/
abbrev Member (e : Enumeration) : Type := Fin e.members.length

end Enumeration

structure Symbol where
  enumeration : Enumeration
  index : UInt16
  name : String
  deriving DecidableEq

namespace Symbol

/-- By enumeration, then index, then name. -/
instance : Ord Symbol where
  compare := compareLex (compareOn enumeration) (compareLex (compareOn index) (compareOn name))

instance : Std.TransOrd Symbol :=
  inferInstanceAs (Std.TransCmp (compareLex _ _))

instance : Std.LawfulEqOrd Symbol where
  eq_of_compare {a b} h := by
    obtain ⟨henum, h⟩ := compareLex_eq_eq.1 h
    obtain ⟨hindex, hname⟩ := compareLex_eq_eq.1 h
    have henum : a.enumeration = b.enumeration := Std.LawfulEqOrd.eq_of_compare henum
    have hindex : a.index = b.index := Std.LawfulEqOrd.eq_of_compare hindex
    have hname : a.name = b.name := Std.LawfulEqOrd.eq_of_compare hname
    cases a; cases b
    simp_all

end Symbol

namespace Enumeration

/-- The first member called `name`. -/
def find? (e : Enumeration) (name : String) : Option Symbol :=
  (e.members.findIdx? (· == name)).map fun i => ⟨e, UInt16.ofNat i, name⟩

def contains (e : Enumeration) (s : Symbol) : Bool :=
  s.enumeration = e && e.members[s.index.toNat]? = some s.name

def symbol (e : Enumeration) (m : e.Member) : Symbol :=
  ⟨e, UInt16.ofNat m, e.members[m]⟩

/-- The member that a symbol stands for. -/
def member? (e : Enumeration) (s : Symbol) : Option e.Member :=
  if h : s.index.toNat < e.members.length then
    if e.contains s then some ⟨s.index.toNat, h⟩ else none
  else none

theorem contains_iff {e : Enumeration} {s : Symbol} :
    e.contains s = true ↔ s.enumeration = e ∧ e.members[s.index.toNat]? = some s.name := by
  simp [contains]

theorem member?_eq_some_iff {e : Enumeration} {s : Symbol} {m : e.Member} :
    e.member? s = some m ↔ e.contains s = true ∧ s.index.toNat = m.val := by
  unfold member?
  split
  · split <;> simp_all [Fin.ext_iff]
  · rename_i hlt
    constructor
    · simp
    · rintro ⟨-, h⟩
      exact absurd m.isLt (h ▸ hlt)

theorem member?_isSome {e : Enumeration} {s : Symbol} :
    (e.member? s).isSome = e.contains s := by
  unfold member?
  split
  · split <;> simp_all
  · rename_i h
    have : e.members[s.index.toNat]? = none := List.getElem?_eq_none (Nat.le_of_not_lt h)
    simp [contains, this]

theorem symbol_of_member? {e : Enumeration} {s : Symbol} {m : e.Member}
    (h : e.member? s = some m) : e.symbol m = s := by
  obtain ⟨hin, hindex⟩ := member?_eq_some_iff.1 h
  obtain ⟨henum, hname⟩ := contains_iff.1 hin
  cases s
  simp only at henum hindex hname
  subst henum
  simp only [hindex, List.getElem?_eq_getElem m.isLt, Option.some.injEq] at hname
  simp only [symbol, Symbol.mk.injEq, true_and]
  exact ⟨by simp [← hindex], hname⟩

/-- A member is found again if its position fits into an index. -/
theorem member?_symbol {e : Enumeration} (h : e.members.length ≤ 65536) (m : e.Member) :
    e.member? (e.symbol m) = some m := by
  have hm : m.val < 65536 := Nat.lt_of_lt_of_le m.isLt h
  have hindex : (e.symbol m).index.toNat = m.val := by
    simp [symbol, Nat.mod_eq_of_lt hm]
  refine member?_eq_some_iff.2 ⟨contains_iff.2 ⟨rfl, ?_⟩, hindex⟩
  rw [hindex]
  simp [symbol]

end Enumeration

end ParseLog
