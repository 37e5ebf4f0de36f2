import Mathlib.Data.List.Basic
import ParseLog.Log.Lookup
import ParseLog.Log.Speculation
/-!
# Logs without raw texts

To forget the raw texts of a log is to put the decoded text of each chunk in their place. Nothing
that is decided on the log looks at raw texts, so it makes no difference whether they are forgotten
before or after events coalesce or speculation is committed.
-/

namespace ParseLog
set_option autoImplicit false

namespace Event

theorem forgetRaw_of_not_chunk {e : Event} (h : e.isChunk = false) : e.forgetRaw = e := by
  cases e <;> first | rfl | cases h

@[simp] theorem isChunk_forgetRaw (e : Event) : e.forgetRaw.isChunk = e.isChunk := by
  cases e <;> rfl

@[simp] theorem isValue_forgetRaw (e : Event) : e.forgetRaw.isValue = e.isValue := by
  cases e <;> rfl

@[simp] theorem sets_forgetRaw (e : Event) (v : Variable) : e.forgetRaw.sets v = e.sets v := by
  cases e <;> rfl

@[simp] theorem scopeSide?_forgetRaw (e : Event) (delimits : Bracket → Bool) :
    e.forgetRaw.scopeSide? delimits = e.scopeSide? delimits := by
  cases e <;> rfl

@[simp] theorem render_forgetRaw (e : Event) (lvl : Detail) :
    e.forgetRaw.render lvl = e.render lvl := by
  cases e <;> rfl

theorem forgetRaw_eq_iff {e x : Event} (h : e.isChunk = false) : x.forgetRaw = e ↔ x = e := by
  cases x with
  | chunk c => cases e <;> simp_all [forgetRaw, isChunk]
  | _ => rfl

/-- Chunks coalesce part by part, the decoded texts and the raw ones. -/
theorem coalesce?_forgetRaw (a b : Event) :
    a.forgetRaw.coalesce? b.forgetRaw = (a.coalesce? b).map forgetRaw := by
  cases a <;> cases b <;> try rfl
  case value.value a b =>
    simp only [forgetRaw, coalesce?]
    split <;> rfl

end Event

namespace Log

def forgetRaw (l : Log) : Log := ⟨l.recent.map Event.forgetRaw⟩

theorem alike_iff {l l' : Log} : l.Alike l' ↔ l.forgetRaw = l'.forgetRaw := by
  simp [Alike, forgetRaw]

@[simp] theorem toList_forgetRaw (l : Log) :
    l.forgetRaw.toList = l.toList.map Event.forgetRaw := by
  simp [forgetRaw, toList]

theorem forgetRaw_appendAll (l : Log) (es : List Event) :
    (l.appendAll es).forgetRaw = l.forgetRaw.appendAll (es.map Event.forgetRaw) := by
  induction es generalizing l with
  | nil => rfl
  | cons e es ih => exact ih (l.append e)

theorem forgetRaw_absorb (l : Log) (e : Event) :
    (l.absorb e).forgetRaw = l.forgetRaw.absorb e.forgetRaw := by
  obtain ⟨recent⟩ := l
  cases recent with
  | nil => rfl
  | cons last older =>
    simp only [absorb, forgetRaw, List.map_cons, Event.coalesce?_forgetRaw]
    cases last.coalesce? e <;> rfl

theorem forgetRaw_absorbAll (l : Log) (es : List Event) :
    (l.absorbAll es).forgetRaw = l.forgetRaw.absorbAll (es.map Event.forgetRaw) := by
  induction es generalizing l with
  | nil => rfl
  | cons e es ih =>
    have hstep := ih (l.absorb e)
    rw [forgetRaw_absorb] at hstep
    exact hstep

theorem forgetRaw_graft (l : Log) (es : List Event) :
    (l.graft es).forgetRaw = l.forgetRaw.graft (es.map Event.forgetRaw) := by
  cases es with
  | nil => rfl
  | cons e es =>
    rw [graft, forgetRaw_appendAll, forgetRaw_absorb]
    rfl

section Markers
variable (l : Log) (m : Marker)

/-- Markers are where they were. -/
theorem comp_forgetRaw_marker :
    (fun e => decide (e ≠ .marker m)) ∘ Event.forgetRaw = fun e => decide (e ≠ .marker m) := by
  funext e
  exact decide_eq_decide.mpr (not_congr (Event.forgetRaw_eq_iff rfl))

theorem since_forgetRaw : l.forgetRaw.since m = (l.since m).map Event.forgetRaw := by
  rw [since, forgetRaw, List.takeWhile_map, comp_forgetRaw_marker]
  rfl

theorem before?_forgetRaw : l.forgetRaw.before? m = (l.before? m).map forgetRaw := by
  unfold before? forgetRaw
  rw [List.dropWhile_map, comp_forgetRaw_marker]
  cases l.recent.dropWhile (fun e => decide (e ≠ .marker m)) <;> rfl

theorem commit_forgetRaw : l.forgetRaw.commit m = (l.commit m).map forgetRaw := by
  unfold commit commitFold
  by_cases hm : m = .lookahead
  · rw [if_pos hm, if_pos hm]
    rfl
  · rw [if_neg hm, if_neg hm, before?_forgetRaw, since_forgetRaw]
    cases l.before? m with
    | none => rfl
    | some base =>
      apply congrArg Except.ok
      rw [putBack_eq_graft, putBack_eq_graft, ← List.map_reverse, forgetRaw_graft]

end Markers

theorem lookBack_forgetRaw {delimits : Bracket → Bool} {wanted : Event → Bool}
    (hwanted : ∀ e : Event, wanted e.forgetRaw = wanted e) (es : List Event) (depth : Nat) :
    lookBack delimits wanted depth (es.map Event.forgetRaw) =
      (lookBack delimits wanted depth es).map Event.forgetRaw := by
  induction es generalizing depth with
  | nil => simp [lookBack]
  | cons e older ih =>
    rw [List.map_cons]
    unfold lookBack
    simp only [Event.scopeSide?_forgetRaw, hwanted, ih]
    split <;> try rfl
    split <;> rfl

theorem binding_forgetRaw (l : Log) (v : Variable) : l.forgetRaw.binding v = l.binding v := by
  unfold binding findInScope
  rw [forgetRaw, lookBack_forgetRaw fun e => e.sets_forgetRaw v]
  cases lookBack (·.delimits v) (·.sets v) 0 l.recent with
  | none => rfl
  | some e => cases e <;> rfl

end Log

end ParseLog
