import ParseLog.Proofs.Log.Reduced
import ParseLog.Proofs.Log.Transcript
/-!
# Coalescing in any grouping

Coalescing is partial, but where it is defined it is associative, and what has coalesced on one side
of an event takes no part on the other. So a stretch of events may coalesce on its own before it is
added to a log, and the log comes out the same.
-/

namespace ParseLog
set_option autoImplicit false

namespace Event
variable {x a b n m : Event}

/-- Of three events whose neighbours coalesce, either pair may do so first. -/
theorem coalesce?_assoc (hn : x.coalesce? a = some n) (hm : a.coalesce? b = some m) :
    ∃ k, n.coalesce? b = some k ∧ x.coalesce? m = some k := by
  obtain ⟨c, d, rfl, rfl, rfl⟩ | ⟨u, v, rfl, rfl, huv, rfl⟩ := coalesce?_cases hn
  · obtain ⟨d, e, hd, rfl, rfl⟩ | ⟨v, w, hv, -⟩ := coalesce?_cases hm
    · obtain rfl := chunk.inj hd
      exact ⟨_, rfl, congrArg (some ∘ chunk) (Chunk.append_assoc c _ e).symm⟩
    · cases hv
  · obtain ⟨d, e, hd, -⟩ | ⟨v, w, hv, rfl, hvw, rfl⟩ := coalesce?_cases hm
    · cases hd
    · obtain rfl := value.inj hv
      exact ⟨value w, if_pos hvw, if_pos (huv.trans hvw)⟩

/-- What stands for two events coalesces with no more than the second of them does. -/
theorem coalesce?_merged_follower (hn : x.coalesce? a = some n) (hb : a.coalesce? b = none) :
    n.coalesce? b = none := by
  obtain ⟨c, d, rfl, rfl, rfl⟩ | ⟨u, v, rfl, rfl, -, rfl⟩ := coalesce?_cases hn
  · cases b <;> simp_all [coalesce?]
  · exact hb

end Event

namespace Log
variable {a b m : Event}

/-- Two events that coalesce may do so before they are absorbed. -/
theorem absorb_absorb (l : Log) (hm : a.coalesce? b = some m) :
    (l.absorb a).absorb b = l.absorb m := by
  obtain ⟨hlast, habsorb⟩ | ⟨older, x, n, rfl, hn, habsorb⟩ := absorb_cases l a
  · have hkept : l.absorb m = l.append m := by
      apply absorb_eq_append
      intro x hx
      exact Event.coalesce?_merged hm (hlast x hx)
    rw [habsorb, absorb_append l hm, hkept]
  · obtain ⟨k, hleft, hright⟩ := Event.coalesce?_assoc hn hm
    rw [habsorb, absorb_append older hleft, absorb_append older hright]

theorem absorb_absorb_of_none (l : Log) (hb : a.coalesce? b = none) :
    (l.absorb a).absorb b = (l.absorb a).append b := by
  obtain ⟨-, habsorb⟩ | ⟨older, x, n, rfl, hn, habsorb⟩ := absorb_cases l a
  · rw [habsorb, absorb_append_of_none l hb]
  · rw [habsorb, absorb_append_of_none older (Event.coalesce?_merged_follower hn hb)]

theorem absorbAll_append (l : Log) (es fs : List Event) :
    l.absorbAll (es ++ fs) = (l.absorbAll es).absorbAll fs :=
  List.foldl_append

/-- The last two of the events added may coalesce first. -/
theorem absorbAll_toList_absorb (l k : Log) (e : Event) :
    l.absorbAll (k.absorb e).toList = (l.absorbAll k.toList).absorb e := by
  obtain ⟨-, habsorb⟩ | ⟨older, last, merged, rfl, hm, habsorb⟩ := absorb_cases k e
  · rw [habsorb, toList_append, absorbAll_append]
    rfl
  · rw [habsorb, toList_append, toList_append, absorbAll_append, absorbAll_append]
    exact (absorb_absorb _ hm).symm

theorem absorbAll_toList_absorbAll (l k : Log) (es : List Event) :
    l.absorbAll (k.absorbAll es).toList = (l.absorbAll k.toList).absorbAll es := by
  induction es generalizing k with
  | nil => rfl
  | cons e es ih =>
    have hstep := ih (k.absorb e)
    rw [absorbAll_toList_absorb] at hstep
    exact hstep

/-- A stretch that has coalesced on its own is added as if it had not. -/
theorem absorbAll_coalesced (l : Log) (es : List Event) :
    l.absorbAll (absorbAll ∅ es).toList = l.absorbAll es :=
  absorbAll_toList_absorbAll l ∅ es

/-- Any stretch of the events may coalesce before the rest. Once all have coalesced, doing it again
changes nothing, since no neighbours are left that would. -/
theorem coalesced_in_any_grouping (xs ys zs : List Event) :
    absorbAll ∅ (xs ++ (absorbAll ∅ ys).toList ++ zs) = absorbAll ∅ (xs ++ ys ++ zs) ∧
      absorbAll ∅ (absorbAll ∅ xs).toList = absorbAll ∅ xs ∧
      Reduced (absorbAll ∅ xs).toList := by
  refine ⟨?_, absorbAll_coalesced ∅ xs, reduced_absorbAll reduced_empty xs⟩
  simp only [absorbAll_append, absorbAll_coalesced]

end Log

end ParseLog
