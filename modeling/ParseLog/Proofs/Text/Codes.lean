/-!
# Texts written code by code

Where each thing of a list is written as a code, each character of what is written stands in the code
of one of the things, between the codes of the things before it and after it.
-/

namespace ParseLog.Text
set_option autoImplicit false

/-- The value of a hexadecimal digit, in upper or lower case. -/
def hexValue? (c : Char) : Option Nat :=
  if '0' ≤ c ∧ c ≤ '9' then some (c.toNat - 48)
  else if 'A' ≤ c ∧ c ≤ 'F' then some (c.toNat - 55)
  else if 'a' ≤ c ∧ c ≤ 'f' then some (c.toNat - 87)
  else none

variable {α : Type} {code : α → List Char}

theorem exists_code_of_flatMap_eq {xs : List α} {before after : List Char} {c : Char}
    (h : xs.flatMap code = before ++ c :: after) :
    ∃ earlier x later front back, xs = earlier ++ x :: later ∧ code x = front ++ c :: back ∧
      before = earlier.flatMap code ++ front ∧ after = back ++ later.flatMap code := by
  induction xs generalizing before with
  | nil => simp at h
  | cons x xs ih =>
    rw [List.flatMap_cons] at h
    -- either the code of the first thing ends before the character or it goes on past it
    have hlater : ∀ rest, before = code x ++ rest → xs.flatMap code = rest ++ c :: after →
        ∃ earlier y later front back, x :: xs = earlier ++ y :: later ∧
          code y = front ++ c :: back ∧ before = earlier.flatMap code ++ front ∧
          after = back ++ later.flatMap code := by
      intro rest hbefore hrest
      obtain ⟨earlier, y, later, front, back, rfl, hcode, rfl, hafter⟩ := ih hrest
      exact ⟨x :: earlier, y, later, front, back, rfl, hcode, by simp [hbefore], hafter⟩
    obtain ⟨rest, hbefore, hrest⟩ | ⟨tail, hcode, htail⟩ := List.append_eq_append_iff.mp h
    · exact hlater rest hbefore hrest
    · cases tail with
      | nil => exact hlater [] (by simpa using hcode.symm) (by simpa using htail.symm)
      | cons d back =>
        obtain ⟨rfl, rfl⟩ := List.cons.inj htail
        exact ⟨[], x, xs, before, back, rfl, hcode, rfl, rfl⟩

end ParseLog.Text
