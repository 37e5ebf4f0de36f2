import Mathlib.Data.List.Basic
import ParseLog.Input
import ParseLog.Text.Slice
/-!
# Moving on in an input

The text that an input moves past is the shortest part of whole characters at the front of the rest
that has as many bytes as asked for. Where a text is next, moving on by its bytes is consuming it.
-/

namespace ParseLog
set_option autoImplicit false

theorem utf8ByteSize_ofList_cons (c : Char) (cs : List Char) :
    (String.ofList (c :: cs)).utf8ByteSize = c.utf8Size + (String.ofList cs).utf8ByteSize := by
  rw [String.ofList_cons, String.utf8ByteSize_append, String.utf8ByteSize_singleton]

/-- `before` is the shortest part of whole characters at the front of `text` with `n` bytes or more,
or all of `text` if that has fewer, and `after` is what follows it. -/
structure IsShortestCut (text : String) (n : Nat) (before after : String) : Prop where
  eq_append : text = before ++ after
  enough : min n text.utf8ByteSize ≤ before.utf8ByteSize
  shortest : ∀ front back, text = front ++ back →
    min n text.utf8ByteSize ≤ front.utf8ByteSize → before.utf8ByteSize ≤ front.utf8ByteSize

theorem isShortestCut_splitAtByte (n : Nat) (cs : List Char) :
    IsShortestCut (String.ofList cs) n (String.ofList (splitAtByte n cs).1)
      (String.ofList (splitAtByte n cs).2) := by
  fun_induction splitAtByte n cs with
  | case1 cs => exact ⟨by simp, by simp, by simp⟩
  | case2 n => exact ⟨by simp, by simp, by simp⟩
  | case3 n c cs before after h ih =>
    simp only [h] at ih
    obtain ⟨hsplit, henough, hshortest⟩ := ih
    refine ⟨?_, ?_, ?_⟩
    · simp only [String.ofList_cons, String.append_assoc, hsplit]
    · simp only [utf8ByteSize_ofList_cons]
      omega
    · intro front back hfront hle
      have hlist : c :: cs = front.toList ++ back.toList := by
        rw [← String.toList_append, ← hfront, String.toList_ofList]
      obtain ⟨hnil, -⟩ | ⟨front', hcons, hcs⟩ := List.cons_eq_append_iff.mp hlist
      · -- an empty front would be too short, as the first character has a byte
        have hempty : front.utf8ByteSize = 0 := by simpa using hnil
        have := c.utf8Size_pos
        rw [utf8ByteSize_ofList_cons] at hle
        omega
      · obtain rfl : front = String.ofList (c :: front') := by rw [← hcons, String.ofList_toList]
        have hrest : String.ofList cs = String.ofList front' ++ back := by
          rw [hcs, String.ofList_append, String.ofList_toList]
        have := hshortest _ _ hrest
        simp only [utf8ByteSize_ofList_cons] at hle ⊢
        omega

/-- A text that starts with another is cut after it. -/
theorem splitAtByte_front (front back : List Char) :
    splitAtByte (String.ofList front).utf8ByteSize (front ++ back) = (front, back) := by
  induction front with
  | nil => simp [splitAtByte]
  | cons c cs ih =>
    obtain ⟨k, hk⟩ : ∃ k, c.utf8Size = k + 1 := Nat.exists_eq_add_one.mpr c.utf8Size_pos
    have hbytes : (String.ofList (c :: cs)).utf8ByteSize =
        k + (String.ofList cs).utf8ByteSize + 1 := by
      rw [utf8ByteSize_ofList_cons, hk]
      omega
    have hrest : k + (String.ofList cs).utf8ByteSize + 1 - c.utf8Size =
        (String.ofList cs).utf8ByteSize := by omega
    rw [hbytes, List.cons_append, splitAtByte, hrest, ih]

namespace Input
variable (i : Input)

theorem buffer_advance (n : Nat) : (i.advance n).buffer = i.buffer := by
  simp [advance, buffer, String.append_assoc, ← String.ofList_append, splitAtByte_append]

theorem isShortestCut_advance (n : Nat) :
    ∃ before, IsShortestCut i.rest n before (i.advance n).rest ∧
      (i.advance n).consumed = i.consumed ++ before := by
  refine ⟨String.ofList (splitAtByte n i.rest.toList).1, ?_, rfl⟩
  have h := isShortestCut_splitAtByte n i.rest.toList
  rwa [String.ofList_toList] at h

theorem offset_le_buffer : i.offset ≤ i.buffer.utf8ByteSize := by
  simp [offset, buffer]

theorem isCut_offset : Text.IsCut i.buffer i.offset := Text.isCut_size i.consumed i.rest

theorem consume?_eq_some_iff {expected : String} {next : Input} :
    i.consume? expected = some next ↔
      i.rest = expected ++ next.rest ∧ next.consumed = i.consumed ++ expected ∧
        next.complete = i.complete := by
  simp only [consume?, Option.map_eq_some_iff, List.isPrefixOf?_eq_some_iff_append_eq]
  constructor
  · rintro ⟨after, hafter, rfl⟩
    exact ⟨String.toList_injective (by simp [hafter]), rfl, rfl⟩
  · rintro ⟨hrest, hconsumed, hcomplete⟩
    refine ⟨next.rest.toList, by simp [hrest], ?_⟩
    cases next
    simp_all

theorem buffer_of_consume? {expected : String} {next : Input}
    (h : i.consume? expected = some next) : next.buffer = i.buffer := by
  obtain ⟨hrest, hconsumed, -⟩ := i.consume?_eq_some_iff.mp h
  rw [buffer, buffer, hconsumed, hrest, String.append_assoc]

theorem isSome_consume?_iff (expected : String) :
    (i.consume? expected).isSome = true ↔ expected.toList <+: i.rest.toList := by
  rw [← List.isPrefixOf_iff_prefix, ← List.isSome_isPrefixOf?_eq_isPrefixOf, consume?,
    Option.isSome_map]

/-- Where a text is next, moving on by its bytes is consuming it. -/
theorem advance_of_consume? {expected : String} {next : Input}
    (h : i.consume? expected = some next) : i.advance expected.utf8ByteSize = next := by
  obtain ⟨hrest, hconsumed, hcomplete⟩ := i.consume?_eq_some_iff.mp h
  have hsplit := splitAtByte_front expected.toList next.rest.toList
  rw [String.ofList_toList, ← String.toList_append, ← hrest] at hsplit
  cases next
  simp_all [advance]

end Input

end ParseLog
