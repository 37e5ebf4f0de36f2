import ParseLog.Log.Speculation
import ParseLog.Proofs.Log.Reduced
import ParseLog.Proofs.Log.Transcript
/-!
# Resolving speculation

Rolling back and committing both cut a log at its most recent marker of the kind. What stands below a
marker that is still on the log plays no part in anything done above it.
-/

namespace ParseLog.Log
set_option autoImplicit false

variable {l base : Log} {m : Marker}

section Split
variable {newer older : List Event} (hnewer : .marker m ∉ newer)
include hnewer

theorem ne_marker_of_mem : ∀ e ∈ newer, decide (e ≠ .marker m) = true := by
  intro e he
  exact decide_eq_true fun heq => hnewer (heq ▸ he)

theorem since_split : (⟨newer ++ .marker m :: older⟩ : Log).since m = newer := by
  simp only [since, List.takeWhile_append_of_pos (ne_marker_of_mem hnewer)]
  simp

theorem before?_split : (⟨newer ++ .marker m :: older⟩ : Log).before? m = some ⟨older⟩ := by
  simp only [before?, List.dropWhile_append_of_pos (ne_marker_of_mem hnewer)]
  simp

end Split

/-- A log splits at the most recent of its markers of a kind. -/
theorem exists_split (h : .marker m ∈ l.recent) :
    ∃ newer older, l = ⟨newer ++ .marker m :: older⟩ ∧ .marker m ∉ newer := by
  obtain ⟨newer, older, hsplit, hnewer⟩ := List.eq_append_cons_of_mem h
  exact ⟨newer, older, congrArg Log.mk hsplit, hnewer⟩

theorem recent_of_before? (h : l.before? m = some base) :
    l.recent = l.since m ++ .marker m :: base.recent := by
  have hsome : (l.before? m).isSome = true := h ▸ rfl
  obtain ⟨newer, older, rfl, hnewer⟩ := exists_split (before?_isSome_iff.mp hsome)
  rw [before?_split hnewer] at h
  obtain rfl := Option.some.inj h
  rw [since_split hnewer]

theorem toList_of_before? (h : l.before? m = some base) :
    l.toList = base.toList ++ .marker m :: (l.since m).reverse := by
  rw [toList, recent_of_before? h]
  simp [toList]

theorem rollback_eq_ok_iff {l' : Log} {i i' : Input} :
    l.rollback m i = .ok (l', i') ↔
      l.before? m = some l' ∧ i' = i.restore (rawText (l.since m).reverse) := by
  unfold rollback
  cases l.before? m <;> simp [eq_comm]

theorem commit_eq_ok_iff {l' : Log} :
    l.commit m = .ok l' ↔ m ≠ .lookahead ∧ ∃ base, l.before? m = some base ∧
      l' = base.graft (l.since m).reverse := by
  unfold commit commitFold
  by_cases hm : m = .lookahead
  · simp [hm]
  · cases l.before? m <;> simp [hm, eq_comm]

theorem map_fst_commitRound (l : Log) : l.commitRound.map Prod.fst = l.commit .loop := by
  simp only [commitRound, commit, commitFold, reduceCtorEq, if_false]
  cases l.before? .loop <;> rfl

theorem mem_graft {x : Event} (hx : x.isChunk = false) {es : List Event}
    (h : x ∈ (l.graft es).recent) : x ∈ es ∨ x ∈ l.recent := by
  cases es with
  | nil => exact .inr h
  | cons first later =>
    rw [graft, recent_appendAll, List.mem_append, List.mem_reverse] at h
    rcases h with hmem | hmem
    · exact .inl (List.mem_cons_of_mem first hmem)
    · rcases mem_absorb hx hmem with rfl | hmem
      · exact .inl List.mem_cons_self
      · exact .inr hmem

theorem transcript_graft (base : Log) (es : List Event) :
    transcript (base.graft es).toList = transcript base.toList ++ transcript es := by
  cases es with
  | nil => simp [graft]
  | cons first later =>
    rw [graft, toList_appendAll, transcript_append, transcript_absorb, transcript_cons,
      Chunk.append_assoc]

theorem transcript_commit {l' : Log} (h : l.commit m = .ok l') :
    transcript l'.toList = transcript l.toList := by
  obtain ⟨-, base, hbase, rfl⟩ := commit_eq_ok_iff.mp h
  rw [transcript_graft, toList_of_before? hbase, transcript_append, transcript_cons,
    Event.text_eq_blank (e := .marker m) rfl, Chunk.blank_append]

/-! ### Above a log -/

/-- The events of `l` after those of `base`. -/
def onto (l base : Log) : Log := ⟨l.recent ++ base.recent⟩

theorem toList_onto (l base : Log) : (l.onto base).toList = base.toList ++ l.toList := by
  simp [onto, toList]

theorem onto_eq_appendAll (l base : Log) : l.onto base = base.appendAll l.toList := by
  apply ext_toList
  rw [toList_onto, toList_appendAll]

theorem appendAll_onto (l base : Log) (es : List Event) :
    (l.onto base).appendAll es = (l.appendAll es).onto base := by
  apply ext_toList
  simp [toList_onto]

theorem absorb_onto_mark (l base : Log) (m : Marker) (e : Event) :
    (l.onto (base.mark m)).absorb e = (l.absorb e).onto (base.mark m) := by
  obtain ⟨es⟩ := l
  cases es with
  | nil =>
    -- The marker is last, and nothing coalesces with it.
    cases e <;> rfl
  | cons last older =>
    simp only [onto, absorb, List.cons_append]
    cases last.coalesce? e <;> rfl

theorem graft_onto_mark (l base : Log) (m : Marker) (es : List Event) :
    (l.onto (base.mark m)).graft es = (l.graft es).onto (base.mark m) := by
  cases es with
  | nil => rfl
  | cons first later => rw [graft, graft, absorb_onto_mark, appendAll_onto]

theorem rollback_onto_mark (hm : .marker m ∉ l.recent) (base : Log) (i : Input) :
    (l.onto (base.mark m)).rollback m i = .ok (base, i.restore (rawText l.toList)) := by
  have hsince : (l.onto (base.mark m)).since m = l.recent := since_split hm
  apply rollback_eq_ok_iff.mpr
  rw [hsince]
  exact ⟨before?_split hm, rfl⟩

section Begun
-- Only speculation that began above `base` is resolved.
variable {k : Marker} (hk : .marker k ∈ l.recent)
include hk

theorem since_onto (base : Log) : (l.onto base).since k = l.since k := by
  obtain ⟨newer, older, rfl, hnewer⟩ := exists_split hk
  rw [onto, List.append_assoc, List.cons_append, since_split hnewer, since_split hnewer]

theorem before?_onto (base : Log) :
    (l.onto base).before? k = (l.before? k).map (·.onto base) := by
  obtain ⟨newer, older, rfl, hnewer⟩ := exists_split hk
  rw [onto, List.append_assoc, List.cons_append, before?_split hnewer, before?_split hnewer]
  rfl

theorem rollback_onto (base : Log) (i : Input) :
    (l.onto base).rollback k i = (l.rollback k i).map fun r => (r.1.onto base, r.2) := by
  unfold rollback
  rw [before?_onto hk, since_onto hk]
  cases l.before? k <;> rfl

theorem commit_onto_mark (base : Log) (m : Marker) :
    (l.onto (base.mark m)).commit k = (l.commit k).map (·.onto (base.mark m)) := by
  unfold commit commitFold
  rw [before?_onto hk, since_onto hk]
  by_cases hlookahead : k = .lookahead
  · simp only [hlookahead, if_true]
    rfl
  · simp only [hlookahead, if_false]
    cases l.before? k with
    | none => rfl
    | some inner => simp [Except.map, graft_onto_mark]

end Begun

end ParseLog.Log
