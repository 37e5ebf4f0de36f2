/-!
# Characters of words

Which characters words are made of is not fixed here: it is a parameter, and what is assumed of it
stands as a hypothesis where it is needed.
-/

namespace ParseLog
set_option autoImplicit false

/-- The characters that a word may begin with, and those that it may go on with. -/
structure WordChars where
  starts : Char → Bool
  continues : Char → Bool

/-- Whether words may go on with what they may begin with, and hold no full stop. -/
structure WordChars.IsDotFree (w : WordChars) : Prop where
  continues_of_starts : ∀ c, w.starts c = true → w.continues c = true
  continues_dot : w.continues '.' = false

theorem WordChars.IsDotFree.starts_dot {w : WordChars} (h : w.IsDotFree) : w.starts '.' = false := by
  apply Bool.eq_false_iff.mpr
  intro hstarts
  cases (h.continues_of_starts '.' hstarts).symm.trans h.continues_dot

end ParseLog
