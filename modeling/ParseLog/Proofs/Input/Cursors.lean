import Mathlib.Order.Bounds.Defs
import ParseLog.Cursor
import ParseLog.Proofs.Input.Cutting
import ParseLog.Proofs.Text.Quoting
/-!
# Cursors and inputs

Every input is the input of a cursor, and each move leads from the cursor of an input to the cursor of
the input that the move leads to. So a cursor that has been moved still stands at a place to cut, no
move gets stuck, and what a move does can be told by the rest alone.
-/

namespace ParseLog
set_option autoImplicit false

theorem Cursor.align?_eq_some {c : Cursor} {p : Nat}
    (h : IsLeast {q | c.position ≤ q ∧ Text.IsCut c.buffer q} p) :
    c.align? = some { c with position := p } := by
  induction hdistance : p - c.position generalizing c with
  | zero =>
    obtain rfl : c.position = p := by
      have := h.1.1
      omega
    rw [align?, if_pos h.1.2]
  | succ distance ih =>
    have hnot : ¬ Text.IsCut c.buffer c.position := fun hcut => by
      have := h.2 ⟨Nat.le_refl c.position, hcut⟩
      omega
    rw [align?, if_neg hnot]
    refine ih ⟨⟨?_, h.1.2⟩, fun q hq => h.2 ⟨Nat.le_of_succ_le hq.1, hq.2⟩⟩ ?_
    · change c.position + 1 ≤ p
      omega
    · change p - (c.position + 1) = distance
      omega

namespace Input
variable (i : Input)

/-- The cursor that keeps both parts of the input in one buffer. -/
def cursor : Cursor := ⟨i.buffer, i.offset, i.complete⟩

theorem rest?_cursor : i.cursor.rest? = some i.rest := by
  have h := Text.slice?_append i.consumed i.rest ""
  rwa [String.append_empty] at h

theorem isAtEnd_cursor : i.cursor.isAtEnd = true ↔ i.rest = "" := by
  simp [Cursor.isAtEnd, cursor, offset, buffer]

/-- The cut of the rest is the first place to cut the buffer from where the search begins. -/
theorem isLeast_offset_advance (n : Nat) :
    IsLeast {p | min (i.offset + n) i.buffer.utf8ByteSize ≤ p ∧ Text.IsCut i.buffer p}
      (i.advance n).offset := by
  obtain ⟨before, hcut, hconsumed⟩ := i.isShortestCut_advance n
  have hsize : i.buffer.utf8ByteSize = i.offset + i.rest.utf8ByteSize :=
    String.utf8ByteSize_append
  have hoffset : (i.advance n).offset = i.offset + before.utf8ByteSize := by
    rw [offset, hconsumed, String.utf8ByteSize_append, offset]
  have henough := hcut.enough
  refine ⟨⟨by omega, ?_⟩, ?_⟩
  · rw [← i.buffer_advance n]
    exact (i.advance n).isCut_offset
  · rintro p ⟨hp, hcutp⟩
    obtain hin | ⟨hle, hrest⟩ := Text.isCut_append.mp hcutp
    · -- a cut in the consumed text is at its end, and then nothing was to be skipped
      have hend : p ≤ i.offset := hin.le
      have hnone : min n i.rest.utf8ByteSize = 0 := by omega
      have := hcut.shortest "" i.rest (by simp) (by simp [hnone])
      simp only [String.utf8ByteSize_empty] at this
      omega
    · obtain ⟨front, back, hfront, hlength⟩ := Text.isCut_iff.mp hrest
      change i.offset ≤ p at hle
      change p - i.offset = _ at hlength
      have := hcut.shortest front back hfront (by omega)
      omega

theorem advance?_cursor (n : Nat) : i.cursor.advance? n = some (i.advance n).cursor := by
  refine (Cursor.align?_eq_some (i.isLeast_offset_advance n)).trans ?_
  rw [cursor, cursor, buffer_advance]
  rfl

theorem consume?_cursor (expected : String) :
    i.cursor.consume? expected = some ((i.consume? expected).map cursor) := by
  have hsome := i.isSome_consume?_iff expected
  rw [← List.isPrefixOf_iff_prefix] at hsome
  simp only [Cursor.consume?, rest?_cursor, bind, Option.bind_some, advance?_cursor]
  cases hconsume : i.consume? expected with
  | none =>
    rw [hconsume] at hsome
    rw [if_neg (mt hsome.mpr (by simp))]
    rfl
  | some next =>
    rw [if_pos (hsome.mp (by rw [hconsume]; rfl)), i.advance_of_consume? hconsume]
    rfl

theorem extend_cursor (more : String) : i.cursor.extend more = (i.extend more).cursor := by
  simp [Cursor.extend, cursor, extend, buffer, offset, String.append_assoc]

theorem restore?_cursor (raw : String) :
    i.cursor.restore? raw = some (i.restore raw).cursor := by
  rw [Cursor.restore?, rest?_cursor]
  simp [cursor, restore, buffer, offset]

theorem render?_cursor : i.cursor.render? = some i.render := by
  rw [Cursor.render?, rest?_cursor]
  simp only [bind, Option.bind_some, Text.Writer.quote?_eq_some]
  rfl

theorem move?_cursor (m : Move) : i.cursor.move? m = some ((i.move? m).map cursor) := by
  cases m with
  | advance n => rw [Cursor.move?, advance?_cursor]; rfl
  | consume expected => exact i.consume?_cursor expected
  | extend more => rw [Cursor.move?, extend_cursor]; rfl
  | finish => rfl
  | restore raw => rw [Cursor.move?, restore?_cursor]; rfl

theorem moves?_cursor (ms : List Move) : i.cursor.moves? ms = some (i.moves ms).cursor := by
  induction ms generalizing i with
  | nil => rfl
  | cons m ms ih =>
    have hstep : (i.cursor.move? m).map (·.getD i.cursor) = some ((i.move? m).getD i).cursor := by
      rw [move?_cursor]
      cases i.move? m <;> rfl
    rw [Cursor.moves?, List.foldlM_cons, hstep]
    exact ih _

end Input

namespace Cursor

/-- What holds of a cursor before `rest` that stands at a place to cut: it has this rest, no move from
it gets stuck, and each changes the rest as it should and leaves alone whether more can arrive, unless
it says that nothing can. -/
structure Serves (c : Cursor) (rest : String) : Prop where
  inside : c.position ≤ c.buffer.utf8ByteSize
  isCut : Text.IsCut c.buffer c.position
  rest_eq : c.rest? = some rest
  isAtEnd_iff : c.isAtEnd = true ↔ rest = ""
  advance : ∀ n, ∃ next before after, c.advance? n = some next ∧
    next.position ≤ c.buffer.utf8ByteSize ∧ next.rest? = some after ∧
    IsShortestCut rest n before after ∧ next.complete = c.complete
  consume : ∀ expected, ∃ answer, c.consume? expected = some answer ∧
    (answer.isSome = true ↔ expected.toList <+: rest.toList) ∧
    ∀ next, answer = some next →
      ∃ after, next.rest? = some after ∧ rest = expected ++ after ∧ next.complete = c.complete
  extend : ∀ more, (c.extend more).rest? = some (rest ++ more) ∧
    (c.extend more).complete = c.complete
  finish : c.finish.rest? = some rest ∧ c.finish.complete = true
  restore : ∀ raw, ∃ next, c.restore? raw = some next ∧ next.rest? = some (raw ++ rest) ∧
    next.complete = c.complete

theorem serves_cursor (i : Input) : i.cursor.Serves i.rest where
  inside := i.offset_le_buffer
  isCut := i.isCut_offset
  rest_eq := i.rest?_cursor
  isAtEnd_iff := i.isAtEnd_cursor
  advance n := by
    obtain ⟨before, hcut, -⟩ := i.isShortestCut_advance n
    refine ⟨_, before, _, i.advance?_cursor n, ?_, (i.advance n).rest?_cursor, hcut, rfl⟩
    have h := (i.advance n).offset_le_buffer
    rwa [i.buffer_advance n] at h
  consume expected := by
    refine ⟨_, i.consume?_cursor expected, ?_, fun next hnext => ?_⟩
    · rw [Option.isSome_map, i.isSome_consume?_iff expected]
    · obtain ⟨j, hj, rfl⟩ := Option.map_eq_some_iff.mp hnext
      obtain ⟨hrest, -, hcomplete⟩ := i.consume?_eq_some_iff.mp hj
      exact ⟨j.rest, j.rest?_cursor, hrest, hcomplete⟩
  extend more := by
    rw [i.extend_cursor]
    exact ⟨(i.extend more).rest?_cursor, rfl⟩
  finish := ⟨i.finish.rest?_cursor, rfl⟩
  restore raw := ⟨_, i.restore?_cursor raw, (i.restore raw).rest?_cursor, rfl⟩

theorem serves_moves? (i : Input) (ms : List Input.Move) :
    ∃ c rest, i.cursor.moves? ms = some c ∧ c.Serves rest :=
  ⟨_, _, i.moves?_cursor ms, serves_cursor (i.moves ms)⟩

/-- From the start of a text, complete or not, whatever moves are made: the cursor stands inside its
buffer at a place to cut, and every further move does what it should. -/
theorem moves_reach_serving (text : String) (ms : List Input.Move) :
    (∃ c rest, (ofString text).moves? ms = some c ∧ c.Serves rest) ∧
      ∃ c rest, (arrived text).moves? ms = some c ∧ c.Serves rest := by
  have hstart : ∀ complete, (⟨text, 0, complete⟩ : Cursor) = Input.cursor ⟨"", text, complete⟩ := by
    simp [Input.cursor, Input.buffer, Input.offset]
  rw [ofString, arrived, hstart, hstart]
  exact ⟨serves_moves? _ ms, serves_moves? _ ms⟩

end Cursor

end ParseLog
