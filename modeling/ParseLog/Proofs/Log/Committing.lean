import Mathlib.Data.List.TakeWhile
import ParseLog.Proofs.Log.Resolving
/-!
# What a commit leaves

A log with a marker `m` on it is a log, the marker and what came after. Committing shows what came
after, the most recent first, and adds it to the log below, where only the first event can coalesce.
-/

namespace ParseLog
set_option autoImplicit false

namespace Log
variable {l base : Log} {m : Marker} {after : List Event}

theorem appendAll_append (l : Log) (es fs : List Event) :
    l.appendAll (es ++ fs) = (l.appendAll es).appendAll fs :=
  List.foldl_append

theorem recent_appendAll_mark (base : Log) (m : Marker) (after : List Event) :
    ((base.mark m).appendAll after).recent = after.reverse ++ .marker m :: base.recent :=
  recent_appendAll (base.mark m) after

theorem toList_appendAll_mark (base : Log) (m : Marker) (after : List Event) :
    ((base.mark m).appendAll after).toList = base.toList ++ .marker m :: after := by
  simp [mark]

/-- A log with a marker on it is what was there before the last one, the marker and the rest. -/
theorem exists_mark (h : .marker m ∈ l.recent) :
    ∃ (base : Log) (after : List Event),
      l = (base.mark m).appendAll after ∧ .marker m ∉ after := by
  obtain ⟨newer, older, rfl, hnewer⟩ := exists_split h
  refine ⟨⟨older⟩, newer.reverse, ?_, fun hmem => hnewer (List.mem_reverse.mp hmem)⟩
  apply ext_toList
  rw [toList_appendAll_mark]
  simp [toList]

section Marked
variable (hafter : .marker m ∉ after)
include hafter

theorem since_mark (base : Log) : ((base.mark m).appendAll after).since m = after.reverse := by
  have hnewer : .marker m ∉ after.reverse := fun hmem => hafter (List.mem_reverse.mp hmem)
  rw [since, recent_appendAll_mark]
  exact since_split hnewer

theorem before?_mark (base : Log) : ((base.mark m).appendAll after).before? m = some base := by
  have hnewer : .marker m ∉ after.reverse := fun hmem => hafter (List.mem_reverse.mp hmem)
  rw [before?, recent_appendAll_mark]
  exact before?_split hnewer

theorem commitFold_mark (hm : m ≠ .lookahead) (base : Log) {σ : Type} (observe : σ → Event → σ)
    (start : σ) : ((base.mark m).appendAll after).commitFold m observe start =
      (after.reverse.foldl observe start, .ok (base.graft after)) := by
  rw [commitFold, if_neg hm, since_mark hafter, before?_mark hafter]
  simp

theorem commit_mark (hm : m ≠ .lookahead) (base : Log) :
    ((base.mark m).appendAll after).commit m = .ok (base.graft after) := by
  rw [commit, commitFold_mark hafter hm]

theorem rollback_mark (base : Log) (i : Input) :
    ((base.mark m).appendAll after).rollback m i = .ok (base, i.restore (rawText after)) := by
  rw [rollback, before?_mark hafter, since_mark hafter, List.reverse_reverse]

end Marked

theorem since_unmarked (h : .marker m ∉ l.recent) : l.since m = l.recent :=
  List.takeWhile_eq_self_iff.mpr (ne_marker_of_mem h)

theorem before?_unmarked (h : .marker m ∉ l.recent) : l.before? m = none :=
  Option.not_isSome_iff_eq_none.mp (mt before?_isSome_iff.mp h)

/-- A lookahead is never kept, a marker that is not there is missed only after the whole log has been
shown, and otherwise all that came after the marker is shown and kept, with one merge at most. -/
theorem commitFold_merges_at_seam {σ : Type} (observe : σ → Event → σ) (start : σ) :
    (∀ l : Log, l.commitFold .lookahead observe start = (start, .error .lookaheadKept)) ∧
    (∀ (l : Log) (m : Marker), m ≠ .lookahead → .marker m ∉ l.recent →
      l.commitFold m observe start =
        (l.recent.foldl observe start, .error (.noSuchMarker m))) ∧
    ∀ (base : Log) (m : Marker), m ≠ .lookahead →
      (base.mark m).commitFold m observe start = (start, .ok base) ∧
      ∀ first later, .marker m ∉ first :: later →
        ((base.mark m).appendAll (first :: later)).commitFold m observe start =
          ((first :: later).reverse.foldl observe start,
            .ok ((base.absorb first).appendAll later)) := by
  refine ⟨fun l => rfl, ?_, ?_⟩
  · intro l m hm hmissing
    rw [commitFold, if_neg hm, since_unmarked hmissing, before?_unmarked hmissing]
  · intro base m hm
    have hnil : .marker m ∉ ([] : List Event) := List.not_mem_nil
    exact ⟨commitFold_mark hnil hm base observe start,
      fun first later hafter => commitFold_mark hafter hm base observe start⟩

end Log

/-! ### A chunk kept next to another -/

namespace Seam

def base : Log := Log.ofList [.chunk (.plain "a")]

def first : Event := .chunk ⟨"<", "&lt;"⟩

def later : List Event := [.marker .loop, .chunk (.plain "b")]

def committed : Log := Log.ofList [.chunk ⟨"a<", "a&lt;"⟩, .marker .loop, .chunk (.plain "b")]

def collect (seen : List Event) (e : Event) : List Event := e :: seen

end Seam

theorem Log.commitFold_merges_at_seam_chunk :
    .marker .branch ∉ Seam.first :: Seam.later ∧
      ((Seam.base.mark .branch).appendAll (Seam.first :: Seam.later)).commitFold .branch
        Seam.collect [] = (Seam.first :: Seam.later, .ok Seam.committed) ∧
      .marker .loop ∉ Seam.base.recent ∧
      Seam.base.commitFold .loop Seam.collect [] =
        ([.chunk (.plain "a")], .error (.noSuchMarker .loop)) := by
  have hafter : .marker .branch ∉ Seam.first :: Seam.later := by decide
  have hmissing : .marker .loop ∉ Seam.base.recent := by decide
  obtain ⟨-, hunmarked, hmarked⟩ := Log.commitFold_merges_at_seam Seam.collect []
  refine ⟨hafter, ?_, hmissing, hunmarked Seam.base .loop nofun hmissing⟩
  exact (hmarked Seam.base .branch nofun).2 Seam.first Seam.later hafter

end ParseLog
