import ParseLog.Proofs.Branches.Turn
import ParseLog.Proofs.Forest.Grown
import ParseLog.Proofs.Log.Reduced
/-!
# Joint logs

A join compacts the logs of the branches and merges them. Compact logs are reduced, and what a merge
takes off reduced branches is reduced again, so nothing coalesces when the merged events are
absorbed.
-/

namespace ParseLog
set_option autoImplicit false

theorem mapM_compact_eq_ok_iff {logs cs : List Log} :
    logs.mapM Log.compact = .ok cs ↔ logs.map Log.compact = cs.map .ok := by
  induction logs generalizing cs with
  | nil => simp [pure, Except.pure, eq_comm]
  | cons l logs ih =>
    rw [List.mapM_cons, List.map_cons]
    constructor
    · intro h
      cases hl : l.compact with
      | error v => rw [hl] at h; cases h
      | ok c =>
        cases hlogs : logs.mapM Log.compact with
        | error v => simp only [hl, hlogs] at h; cases h
        | ok cs' =>
          simp only [hl, hlogs] at h
          cases h
          rw [ih.mp hlogs, List.map_cons]
    · intro h
      cases cs with
      | nil => cases h
      | cons c cs' =>
        obtain ⟨hl, hlogs⟩ := List.cons.inj h
        rw [hl, ih.mpr hlogs]
        rfl

theorem mapM_compact_eq_error {logs : List Log} {v : Violation}
    (h : logs.mapM Log.compact = .error v) :
    ∃ before l after, logs = before ++ l :: after ∧ (∀ l' ∈ before, ∃ f, l'.forest = .ok f) ∧
      l.forest = .error v := by
  induction logs with
  | nil => cases h
  | cons l logs ih =>
    rw [List.mapM_cons] at h
    cases hl : l.compact with
    | error v' =>
      rw [hl] at h
      cases h
      exact ⟨[], l, logs, rfl, by simp, Log.compact_eq_error_iff.mp hl⟩
    | ok c =>
      rw [hl] at h
      obtain ⟨f, hf, -⟩ := Log.compact_eq_ok_iff.mp hl
      cases hlogs : logs.mapM Log.compact with
      | ok cs => simp only [hlogs] at h; cases h
      | error v' =>
        simp only [hlogs] at h
        cases h
        obtain ⟨before, l', after, rfl, hbefore, hl'⟩ := ih hlogs
        exact ⟨l :: before, l', after, rfl, List.forall_mem_cons.mpr ⟨⟨f, hf⟩, hbefore⟩, hl'⟩

theorem exists_mapM_compact {logs : List Log} (h : ∀ l ∈ logs, ∃ f, l.forest = .ok f) :
    ∃ cs, logs.mapM Log.compact = .ok cs := by
  cases hcs : logs.mapM Log.compact with
  | ok cs => exact ⟨cs, rfl⟩
  | error v =>
    obtain ⟨before, l, after, rfl, -, hl⟩ := mapM_compact_eq_error hcs
    obtain ⟨f, hf⟩ := h l (by simp)
    cases hl.symm.trans hf

theorem compact_mem {logs cs : List Log} (h : logs.mapM Log.compact = .ok cs) {l : Log}
    (hl : l ∈ logs) : ∃ c ∈ cs, l.compact = .ok c := by
  have hmem : l.compact ∈ cs.map Except.ok :=
    mapM_compact_eq_ok_iff.mp h ▸ List.mem_map_of_mem hl
  obtain ⟨c, hc, heq⟩ := List.mem_map.mp hmem
  exact ⟨c, hc, heq.symm⟩

theorem mem_of_compact {logs cs : List Log} (h : logs.mapM Log.compact = .ok cs) {c : Log}
    (hc : c ∈ cs) : ∃ l ∈ logs, l.compact = .ok c := by
  have hmem : Except.ok c ∈ logs.map Log.compact :=
    mapM_compact_eq_ok_iff.mp h ▸ List.mem_map_of_mem hc
  exact List.mem_map.mp hmem

namespace Pending

theorem reduced_advance {p : Pending} (h : ∀ es ∈ p, Reduced es) (taken : Event → Bool) :
    ∀ es ∈ p.advance taken, Reduced es := by
  intro es hes
  obtain ⟨es', hes', rfl⟩ := List.mem_map.mp hes
  have hes'' := h es' hes'
  unfold dropFront
  split
  · exact hes''
  · split
    · exact hes''.of_cons
    · exact hes''

/-- What is in front after a turn followed a taken event, or it was left in front. -/
theorem front_of_advance {p : Pending} (hp : ∀ es ∈ p, Reduced es) {taken : Event → Bool}
    {e : Event} (he : some e ∈ (p.advance taken).fronts) :
    (∃ x, taken x = true ∧ x.coalesce? e = none) ∨ (taken e = false ∧ some e ∈ p.fronts) := by
  obtain ⟨es, hes, hhead⟩ := List.mem_map.mp he
  obtain ⟨es', hes', rfl⟩ := List.mem_map.mp hes
  cases es' with
  | nil => cases hhead
  | cons x later =>
    by_cases hx : taken x = true
    · simp only [dropFront, hx] at hhead
      exact .inl ⟨x, hx, (List.isChain_cons.mp (hp _ hes')).1 e hhead⟩
    · simp only [dropFront, hx] at hhead
      obtain rfl : x = e := by simpa using hhead
      exact .inr ⟨by simpa using hx, mem_fronts hes'⟩

/-- After a turn, no branch has in front what would coalesce with what was taken. -/
theorem coalesce?_front {p q : Pending} {e : Event} (hp : ∀ es ∈ p, Reduced es) (h : p.Turn e q)
    {e' : Event} (he' : some e' ∈ q.fronts) : e.coalesce? e' = none := by
  cases h with
  | chunk =>
    rcases front_of_advance hp he' with ⟨x, hx, hnone⟩ | ⟨hleft, -⟩
    · cases x <;> simp only [Event.isChunk, Bool.false_eq_true] at hx
      cases e' <;> simp_all [Event.coalesce?]
    · cases e' <;> simp_all [Event.coalesce?, Event.isChunk]
  | @meet m =>
    rcases front_of_advance hp he' with ⟨x, hx, hnone⟩ | ⟨hleft, -⟩
    · cases x <;> simp only [Event.sets, Bool.false_eq_true] at hx
      case value a =>
        have hvar : a.var = m.var := by simpa [Value.isOf] using hx
        cases e' <;> simp_all [Event.coalesce?]
    · cases e' <;> simp only [Event.coalesce?]
      case value b =>
        have hvar : m.var ≠ b.var := fun heq => by simp [Event.sets, Value.isOf, heq] at hleft
        rw [if_neg hvar]
  | share _ _ all =>
    rcases front_of_advance hp he' with ⟨x, hx, hnone⟩ | ⟨hleft, hmem⟩
    · obtain rfl : x = e := by simpa using hx
      exact hnone
    · obtain rfl : e' = e := by simpa using all _ hmem
      simp at hleft

theorem coalesce?_turn {p q r : Pending} {e e' : Event} (hp : ∀ es ∈ p, Reduced es)
    (h : p.Turn e q) (h' : q.Turn e' r) : e.coalesce? e' = none := by
  cases h' with
  | chunk front => exact coalesce?_front hp h front
  | @meet m _ bound =>
    obtain ⟨-, a, hvar, ha⟩ := bound
    have hnone := coalesce?_front hp h ha
    cases e <;> simp_all [Event.coalesce?]
  | share _ _ all nonempty =>
    obtain ⟨es, hes⟩ := List.exists_mem_of_ne_nil _ nonempty
    exact coalesce?_front hp h (all _ (mem_fronts hes) ▸ mem_fronts hes)

theorem reduced_run {p : Pending} {fs : List Event} (hp : ∀ es ∈ p, Reduced es) (h : p.Run fs) :
    Reduced fs := by
  induction h with
  | done => exact .nil
  | @turn p q e fs hstep hrest ih =>
    have hturn := turn_of_step hstep
    obtain ⟨taken, rfl⟩ := hturn.eq_advance
    refine reduced_cons (ih (reduced_advance hp taken)) ?_
    -- The event after `e` is what the next turn takes.
    intro e' he'
    cases hrest with
    | done => cases he'
    | turn hstep' _ =>
      obtain rfl := Option.some.inj he'
      exact coalesce?_turn hp hturn (turn_of_step hstep')

end Pending

/-- A joint log is what the merge of the compact logs takes. -/
theorem jointLog_eq_ok_iff {logs : List Log} {c : Log} :
    jointLog logs = .ok c ↔ logs ≠ [] ∧ ∃ cs fs, logs.mapM Log.compact = .ok cs ∧
      Pending.Run (cs.map Log.toList) fs ∧ c = Log.ofList fs := by
  unfold jointLog
  cases logs with
  | nil => simp
  | cons l logs =>
    cases hcs : (l :: logs).mapM Log.compact with
    | error v => simp [JoinError.lift, Except.mapError, bind, Except.bind]
    | ok cs =>
      have hreduced : ∀ es ∈ cs.map Log.toList, Reduced es := by
        intro es hes
        obtain ⟨c', hc', rfl⟩ := List.mem_map.mp hes
        have hmem : Except.ok c' ∈ (l :: logs).map Log.compact :=
          mapM_compact_eq_ok_iff.mp hcs ▸ List.mem_map_of_mem hc'
        obtain ⟨l', -, hl'⟩ := List.mem_map.mp hmem
        exact Log.reduced_compact hl'
      cases hfs : Pending.merge (cs.map Log.toList) with
      | error err =>
        simp [JoinError.lift, Except.mapError, bind, Except.bind, hfs, ← Pending.merge_eq_ok_iff]
      | ok fs =>
        have hfs' :=
          Log.absorbAll_empty (Pending.reduced_run hreduced (Pending.merge_eq_ok_iff.mp hfs))
        simp [JoinError.lift, Except.mapError, bind, Except.bind, hfs, ← Pending.merge_eq_ok_iff,
          pure, Except.pure, hfs', eq_comm]

theorem jointLog_eq_error {logs : List Log} {err : JoinError} (h : jointLog logs = .error err)
    (hne : logs ≠ []) :
    (∃ v, logs.mapM Log.compact = .error v ∧ err = .violation v) ∨
      ∃ cs, logs.mapM Log.compact = .ok cs ∧ Pending.merge (cs.map Log.toList) = .error err := by
  unfold jointLog at h
  rw [if_neg (by simpa using hne)] at h
  cases hcs : logs.mapM Log.compact with
  | error v =>
    rw [hcs] at h
    cases h
    exact .inl ⟨v, rfl, rfl⟩
  | ok cs =>
    cases hfs : Pending.merge (cs.map Log.toList) with
    | error err' =>
      simp only [hcs, JoinError.lift, Except.mapError, bind, Except.bind, hfs] at h
      cases h
      exact .inr ⟨cs, rfl, hfs⟩
    | ok fs =>
      simp only [hcs, JoinError.lift, Except.mapError, bind, Except.bind, hfs] at h
      cases h

end ParseLog
