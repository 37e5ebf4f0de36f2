/-!
# Parts of a text between byte offsets

A text can be cut at the byte offsets at which one of its characters begins, and at its end. The part
between two offsets exists only if the text can be cut at both and they are in order.
-/

namespace ParseLog.Text
set_option autoImplicit false

/-- Whether the text can be cut after its first `offset` bytes. -/
def IsCut (s : String) (offset : Nat) : Prop := (⟨offset⟩ : String.Pos.Raw).IsValid s

instance (s : String) (offset : Nat) : Decidable (IsCut s offset) :=
  inferInstanceAs (Decidable ((⟨offset⟩ : String.Pos.Raw).IsValid s))

theorem isCut_iff {s : String} {offset : Nat} :
    IsCut s offset ↔ ∃ before after, s = before ++ after ∧ offset = before.utf8ByteSize := by
  simp [IsCut, String.Pos.Raw.isValid_iff_exists_append, String.Pos.Raw.ext_iff]

theorem isCut_size (before after : String) : IsCut (before ++ after) before.utf8ByteSize :=
  isCut_iff.mpr ⟨before, after, rfl, rfl⟩

theorem IsCut.le {s : String} {offset : Nat} (h : IsCut s offset) : offset ≤ s.utf8ByteSize :=
  h.le_utf8ByteSize

theorem isCut_append {s t : String} {offset : Nat} :
    IsCut (s ++ t) offset ↔
      IsCut s offset ∨ s.utf8ByteSize ≤ offset ∧ IsCut t (offset - s.utf8ByteSize) :=
  String.Pos.Raw.isValid_append

/-- The part from the offset `first` to the offset `last`, or nothing if it cannot be cut out. -/
def slice? (s : String) (first last : Nat) : Option String :=
  if h : IsCut s first ∧ IsCut s last ∧ first ≤ last then
    some (s.extract ⟨⟨first⟩, h.1⟩ ⟨⟨last⟩, h.2.1⟩)
  else none

theorem slice?_append (before part after : String) :
    slice? (before ++ (part ++ after)) before.utf8ByteSize (before ++ part).utf8ByteSize =
      some part := by
  have hfirst := isCut_size before (part ++ after)
  have hlast := isCut_size (before ++ part) after
  rw [String.append_assoc] at hlast
  rw [slice?, dif_pos ⟨hfirst, hlast, by simp⟩, Option.some_inj, ← String.toByteArray_inj]
  have hpart : (before.toByteArray ++ (part.toByteArray ++ after.toByteArray)).extract
      before.toByteArray.size (before.toByteArray.size + part.toByteArray.size) =
      (part.toByteArray ++ after.toByteArray).extract 0 part.toByteArray.size :=
    ByteArray.extract_append_size_add (i := 0)
  simpa [← String.size_toByteArray, ByteArray.extract_append_eq_left] using hpart

end ParseLog.Text
