/-!
# Character classes given by code point ranges
-/

namespace ParseLog.Text
set_option autoImplicit false

/-- The code points from `first` to `last`, both included. -/
structure CodeRange where
  first : Nat
  last : Nat

/-- Whether one range is part of another. -/
def CodeRange.within (r s : CodeRange) : Bool := s.first ≤ r.first && r.last ≤ s.last

def CodeRange.contains (r : CodeRange) (c : Char) : Bool :=
  r.first ≤ c.toNat && c.toNat ≤ r.last

theorem CodeRange.contains_of_within {r s : CodeRange} (h : r.within s = true) {c : Char}
    (hc : r.contains c = true) : s.contains c = true := by
  simp only [within, contains, Bool.and_eq_true, decide_eq_true_eq] at *
  omega

/-- Whether one of the ranges of `table` holds `c`. -/
def inRanges (table : List CodeRange) (c : Char) : Bool :=
  table.any (·.contains c)

/-- What is left of a table when the ranges of another are passed over in turn, each one taking away
those at the front that are part of it. -/
def uncovered (rs table : List CodeRange) : List CodeRange :=
  table.foldl (fun rs s => rs.dropWhile (·.within s)) rs

theorem inRanges_or_mem_uncovered {rs table : List CodeRange} {r : CodeRange} {c : Char}
    (hr : r ∈ rs) (hc : r.contains c = true) :
    inRanges table c = true ∨ r ∈ uncovered rs table := by
  induction table generalizing rs with
  | nil => exact .inr hr
  | cons s table ih =>
    rw [← List.takeWhile_append_dropWhile (p := (·.within s)) (l := rs), List.mem_append] at hr
    rcases hr with hcovered | hleft
    · have hwithin : r.within s = true :=
        List.all_eq_true.mp (List.all_takeWhile (p := (·.within s))) r hcovered
      have hs : s.contains c = true := CodeRange.contains_of_within hwithin hc
      left
      rw [inRanges, List.any_cons, hs, Bool.true_or]
    · refine (ih hleft).imp_left fun htable => ?_
      rw [inRanges, List.any_cons]
      exact Bool.or_eq_true_iff.mpr (.inr htable)

/-- A table of which nothing is left is part of the other. -/
theorem inRanges_of_uncovered_eq_nil {rs table : List CodeRange} (h : uncovered rs table = [])
    {c : Char} (hc : inRanges rs c = true) : inRanges table c = true := by
  obtain ⟨r, hr, hrc⟩ := List.any_eq_true.mp hc
  refine (inRanges_or_mem_uncovered hr hrc).resolve_right ?_
  rw [h]
  exact List.not_mem_nil

end ParseLog.Text
