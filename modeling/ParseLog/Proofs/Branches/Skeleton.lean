import ParseLog.Proofs.Branches.Joint
/-!
# Skeletons

The skeleton of a log is what remains of its compact form without chunks and values of
multi-variables. Branches join exactly if they have one skeleton, and the joint log has it too.
-/

namespace ParseLog
set_option autoImplicit false

/-- The events that all branches have to share. -/
def skeleton (es : List Event) : List Event := es.filter Event.isRigid

def Log.skeleton (l : Log) : Except Violation (List Event) :=
  l.compact.map fun c => ParseLog.skeleton c.toList

namespace Pending

theorem skeleton_dropFront {taken : Event → Bool} (h : ∀ e, taken e = true → e.isRigid = false)
    (es : List Event) : skeleton (dropFront taken es) = skeleton es := by
  cases es with
  | nil => rfl
  | cons e later =>
    by_cases he : taken e = true
    · simp [dropFront, he, skeleton, h e he]
    · simp [dropFront, he]

theorem dropFront_of_head? {e : Event} {es : List Event} (h : es.head? = some e) :
    es = e :: dropFront (· = e) es := by
  cases es with
  | nil => cases h
  | cons x later =>
    obtain rfl : x = e := by simpa using h
    simp [dropFront]

/-- One turn takes the same rigid events off all branches. -/
theorem skeleton_turn {p q : Pending} {e : Event} (h : p.Turn e q) :
    ∃ taken, q = p.advance taken ∧
      ∀ es ∈ p, skeleton es = skeleton [e] ++ skeleton (dropFront taken es) := by
  cases h with
  | chunk =>
    refine ⟨_, rfl, fun es _ => ?_⟩
    rw [skeleton_dropFront]
    · rfl
    · intro e he
      simp [Event.isRigid, he]
  | @meet m _ bound =>
    refine ⟨_, rfl, fun es _ => ?_⟩
    have hm : (Event.value m).isRigid = false := by
      simp [Event.isRigid, Event.multiValue?, bound.1]
    rw [skeleton_dropFront]
    · simp [skeleton, hm]
    · intro e he
      cases e <;> simp only [Event.sets, Bool.false_eq_true] at he
      case value a =>
        have hvar : a.var = m.var := by simpa [Value.isOf] using he
        simp [Event.isRigid, Event.multiValue?, hvar, bound.1]
  | share _ rigid all =>
    refine ⟨_, rfl, fun es hes => ?_⟩
    have hes' := dropFront_of_head? (all _ (mem_fronts hes))
    generalize dropFront (· = e) es = later at hes'
    subst es
    simp [skeleton, rigid]

theorem skeleton_run {p : Pending} {fs : List Event} (h : p.Run fs) :
    ∀ es ∈ p, skeleton es = skeleton fs := by
  induction h with
  | @done p hstop =>
    intro es hes
    have hnil : es = [] :=
      List.head?_eq_none_iff.mp (fronts_of_step_none hstop _ (mem_fronts hes))
    rw [hnil]
  | @turn p q e fs hstep _ ih =>
    intro es hes
    obtain ⟨taken, rfl, htaken⟩ := skeleton_turn (turn_of_step hstep)
    have hlater := ih _ (List.mem_map_of_mem hes)
    rw [htaken es hes, hlater]
    simp [skeleton, List.filter_cons]
    split <;> rfl

/-- What is in front of settled branches is the front of their skeletons. -/
theorem head?_skeleton {p : Pending} (h : p.Settled) {es : List Event} (hes : es ∈ p) :
    (skeleton es).head? = es.head? := by
  cases es with
  | nil => rfl
  | cons e later =>
    have hrigid := isRigid_of_settled h (mem_fronts hes)
    simp [skeleton, hrigid]

theorem run_of_skeleton {p : Pending} {sk : List Event} (h : ∀ es ∈ p, skeleton es = sk) :
    ∃ fs, p.Run fs := by
  -- The branches keep one skeleton from turn to turn, so no two of them ever differ in front.
  induction p using merge.induct generalizing sk with
  | case1 p err hstep =>
    exfalso
    obtain ⟨f, hf, g, hg, hne, hsettled, -⟩ := fronts_of_step_error hstep
    obtain ⟨es, hes, rfl⟩ := List.mem_map.mp hf
    obtain ⟨es', hes', rfl⟩ := List.mem_map.mp hg
    apply hne
    rw [← head?_skeleton hsettled hes, ← head?_skeleton hsettled hes', h es hes, h es' hes']
  | case2 p hstep => exact ⟨[], .done hstep⟩
  | case3 p e q hstep ih =>
    obtain ⟨taken, rfl, htaken⟩ := skeleton_turn (turn_of_step hstep)
    have hnext : ∀ es ∈ p.advance taken, skeleton es = sk.drop (skeleton [e]).length := by
      intro es hes
      obtain ⟨es', hes', rfl⟩ := List.mem_map.mp hes
      rw [← h es' hes', htaken es' hes', List.drop_left]
    obtain ⟨fs, hfs⟩ := ih hnext
    exact ⟨e :: fs, .turn hstep hfs⟩

end Pending

theorem Log.skeleton_eq {l c : Log} (h : l.compact = .ok c) :
    l.skeleton = .ok (ParseLog.skeleton c.toList) := by
  simp [skeleton, h, Except.map]

theorem skeleton_jointLog {logs : List Log} {c : Log} (h : jointLog logs = .ok c) {l : Log}
    (hl : l ∈ logs) : l.skeleton = .ok (skeleton c.toList) := by
  obtain ⟨-, cs, fs, hcs, hrun, rfl⟩ := jointLog_eq_ok_iff.mp h
  obtain ⟨c', hc', hcompact⟩ := compact_mem hcs hl
  rw [Log.skeleton_eq hcompact, Pending.skeleton_run hrun _ (List.mem_map_of_mem hc'),
    Log.toList_ofList]

/-- Branches join exactly if their logs have forests and one skeleton. -/
theorem exists_jointLog_iff {logs : List Log} (hne : logs ≠ []) :
    (∃ c, jointLog logs = .ok c) ↔ (∀ l ∈ logs, ∃ f, l.forest = .ok f) ∧
      ∀ l ∈ logs, ∀ l' ∈ logs, l.skeleton = l'.skeleton := by
  constructor
  · rintro ⟨c, hc⟩
    obtain ⟨-, cs, fs, hcs, -, -⟩ := jointLog_eq_ok_iff.mp hc
    constructor
    · intro l hl
      obtain ⟨c', -, hcompact⟩ := compact_mem hcs hl
      obtain ⟨f, hf, -⟩ := Log.compact_eq_ok_iff.mp hcompact
      exact ⟨f, hf⟩
    · intro l hl l' hl'
      rw [skeleton_jointLog hc hl, skeleton_jointLog hc hl']
  · rintro ⟨hforest, hskeleton⟩
    obtain ⟨cs, hcs⟩ := exists_mapM_compact hforest
    obtain ⟨first, hfirst⟩ := List.exists_mem_of_ne_nil logs hne
    obtain ⟨c, -, hc⟩ := compact_mem hcs hfirst
    have hall : ∀ es ∈ cs.map Log.toList, skeleton es = skeleton c.toList := by
      intro es hes
      obtain ⟨c', hc', rfl⟩ := List.mem_map.mp hes
      obtain ⟨l, hl, hcompact⟩ := mem_of_compact hcs hc'
      have heq := hskeleton l hl first hfirst
      rw [Log.skeleton_eq hcompact, Log.skeleton_eq hc] at heq
      exact Except.ok.inj heq
    obtain ⟨fs, hfs⟩ := Pending.run_of_skeleton hall
    exact ⟨_, jointLog_eq_ok_iff.mpr ⟨hne, cs, fs, hcs, hfs, rfl⟩⟩

/-- Branches join exactly if their logs have forests and one skeleton, and the joint log keeps that
skeleton. Otherwise the first log without a forest is at fault, or two branches disagree. -/
theorem jointLog_keeps_skeleton (first : Log) (others : List Log) :
    ((∃ c, jointLog (first :: others) = .ok c) ↔
      (∀ l ∈ first :: others, ∃ f, l.forest = .ok f) ∧
        ∀ l ∈ first :: others, ∀ l' ∈ first :: others, l.skeleton = l'.skeleton) ∧
    (∀ c, jointLog (first :: others) = .ok c →
      ∀ l ∈ first :: others, l.skeleton = .ok (skeleton c.toList)) ∧
    ∀ err, jointLog (first :: others) = .error err →
      (∃ before l after b, first :: others = before ++ l :: after ∧
        (∀ l' ∈ before, ∃ f, l'.forest = .ok f) ∧ l.forest = .error (.strayRight b) ∧
          err = .violation (.strayRight b)) ∨
      ((∀ l ∈ first :: others, ∃ f, l.forest = .ok f) ∧
        ∃ a b, err = .disagreement "Outputs cannot be reconciled" a b) := by
  refine ⟨exists_jointLog_iff (by simp), fun c hc l hl => skeleton_jointLog hc hl, ?_⟩
  intro err herr
  rcases jointLog_eq_error herr (by simp) with ⟨v, hv, rfl⟩ | ⟨cs, hcs, hmerge⟩
  · obtain ⟨before, l, after, hsplit, hbefore, hl⟩ := mapM_compact_eq_error hv
    obtain ⟨b, rfl⟩ := Log.forest_eq_error hl
    exact .inl ⟨before, l, after, b, hsplit, hbefore, hl, rfl⟩
  · refine .inr ⟨fun l hl => ?_, Pending.merge_eq_error hmerge⟩
    obtain ⟨c, -, hcompact⟩ := compact_mem hcs hl
    obtain ⟨f, hf, -⟩ := Log.compact_eq_ok_iff.mp hcompact
    exact ⟨f, hf⟩

end ParseLog
