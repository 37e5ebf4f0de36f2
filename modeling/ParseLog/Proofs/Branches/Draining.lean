import Mathlib.Data.List.Find
import ParseLog.Branches.MergeLoop
import ParseLog.Proofs.Branches.Alignment
import ParseLog.Proofs.Branches.Forgetting
/-!
# Draining

A round of the merge loop is a turn of the merge, for the rule that gives the event accounts for the
fronts that the turn takes. So every round takes something off a branch, no round breaks the loop off
while a branch has anything left, and the loop ends.
-/

namespace ParseLog
set_option autoImplicit false

namespace Pending

theorem advance_congr {p : Pending} {taken taken' : Event → Bool}
    (h : ∀ e, some e ∈ p.fronts → taken e = taken' e) : p.advance taken = p.advance taken' := by
  refine List.map_congr_left fun es hes => ?_
  cases es with
  | nil => rfl
  | cons e later =>
    have he : taken e = taken' e := h e (mem_fronts hes)
    rw [dropFront, dropFront, he]

end Pending

namespace MergeRule

theorem accountsFor_sets (m : Value) (front : Event) :
    sets.accountsFor (.value m) front = front.sets m.var := by
  cases front with
  | value b => exact decide_eq_decide.mpr eq_comm
  | _ => rfl

theorem accountsFor_agreement {e : Event} (h : e.isChunk = false) (front : Event) :
    agreement.accountsFor e front = decide (front = e) := by
  refine decide_eq_decide.mpr ?_
  rw [Event.Alike, Event.forgetRaw_of_not_chunk h, eq_comm, Event.forgetRaw_eq_iff h]

section Choice
variable {p : Pending} (hchunk : p.fronts.findSome? (·.bind Event.chunk?) = none)

include hchunk in
/-- Without chunks in front, alike fronts are equal. -/
theorem merge?_agreement : merge? p.fronts .agreement = sharedFront p.fronts := by
  have hforget : ∀ front ∈ p.fronts, front.map Event.forgetRaw = front := fun _ hfront =>
    Pending.map_forgetRaw_front hchunk hfront
  generalize p.fronts = fronts at hforget
  cases fronts with
  | nil => rfl
  | cons first others =>
    obtain ⟨hfirst, hothers⟩ := List.forall_mem_cons.mp hforget
    have hfind : ((first :: others).find? fun front =>
        front.map Event.forgetRaw ≠ first.map Event.forgetRaw) = others.find? (· ≠ first) := by
      rw [List.find?_cons_of_neg (by simp), hfirst]
      exact List.find?_congr fun front hfront => by rw [hothers front hfront]
    rw [sharedFront, ← hfind]
    rfl

theorem choose_of_chunk? {e : Event} (he : p.fronts.findSome? (·.bind Event.chunk?) = some e) :
    choose p.fronts = .ok (some (chunks, e)) := by
  simp only [choose, inOrder, List.findSomeM?, merge?, he]
  rfl

include hchunk in
theorem choose_of_multiValue? {first : Value}
    (hmulti : p.fronts.findSome? (·.bind Event.multiValue?) = some first) :
    choose p.fronts =
      (JoinError.lift (p.fronts.foldlM Value.meetFront first)).map fun m =>
        some (sets, Event.value m) := by
  simp only [choose, inOrder, List.findSomeM?, merge?, hchunk, hmulti]
  cases p.fronts.foldlM Value.meetFront first <;> rfl

include hchunk in
theorem choose_of_shared (hmulti : p.fronts.findSome? (·.bind Event.multiValue?) = none) :
    choose p.fronts =
      (sharedFront p.fronts).map fun front => front.map fun e => (agreement, e) := by
  rw [← merge?_agreement hchunk]
  simp only [choose, inOrder, List.findSomeM?, merge?.eq_1, merge?.eq_2, hchunk, hmulti]
  rcases merge? p.fronts .agreement with err | _ | e <;> rfl

end Choice

end MergeRule

/-- The rule that gives the event accounts for the fronts that the turn takes, and for no others. -/
theorem Pending.step_eq_choose (p : Pending) : p.step =
    (MergeRule.choose p.fronts).map fun choice => choice.map fun c =>
      (c.2, p.advance (c.1.accountsFor c.2)) := by
  cases hchunk : p.fronts.findSome? (·.bind Event.chunk?) with
  | some e =>
    rw [MergeRule.choose_of_chunk? hchunk]
    simp only [step, hchunk]
    rfl
  | none =>
    cases hmulti : p.fronts.findSome? (·.bind Event.multiValue?) with
    | some first =>
      rw [MergeRule.choose_of_multiValue? hchunk hmulti]
      simp only [step, hchunk, hmulti]
      cases p.fronts.foldlM Value.meetFront first with
      | error v => rfl
      | ok m =>
        have htaken : p.advance (·.sets m.var) =
            p.advance (MergeRule.sets.accountsFor (.value m)) :=
          advance_congr fun e _ => (MergeRule.accountsFor_sets m e).symm
        exact congrArg (fun q => Except.ok (some (Event.value m, q))) htaken
    | none =>
      rw [MergeRule.choose_of_shared hchunk hmulti]
      simp only [step, hchunk, hmulti]
      rcases hshared : sharedFront p.fronts with err | _ | e
      · rfl
      · rfl
      · have htaken : p.advance (· = e) = p.advance (MergeRule.agreement.accountsFor e) := by
          have he : e.isChunk = false := isChunk_front hchunk (mem_fronts_of_sharedFront hshared)
          exact advance_congr fun x _ => (MergeRule.accountsFor_agreement he x).symm
        exact congrArg (fun q => Except.ok (some (e, q))) htaken

/-- Some branches have lost the event in front, at least one of them, and nothing else has changed. -/
structure Pending.LosesFronts (p q : Pending) : Prop where
  each : List.Forall₂ (fun es fs => fs = es ∨ ∃ e, es = e :: fs) p q
  one : ∃ e fs, (e :: fs, fs) ∈ p.zip q

theorem Pending.losesFronts_advance {p : Pending} {taken : Event → Bool} {e : Event}
    (he : some e ∈ p.fronts) (htaken : taken e = true) : p.LosesFronts (p.advance taken) where
  each := by
    refine List.forall₂_map_right_iff.mpr (List.forall₂_same.mpr fun es _ => ?_)
    cases es with
    | nil => exact .inl rfl
    | cons x later =>
      cases hx : taken x with
      | true => exact .inr ⟨x, by simp [dropFront, hx]⟩
      | false => exact .inl (by simp [dropFront, hx])
  one := by
    obtain ⟨es, hes, hhead⟩ := List.mem_map.mp he
    obtain ⟨later, rfl⟩ := List.head?_eq_some_iff.mp hhead
    refine ⟨e, later, ?_⟩
    rw [advance, ← List.map_prod_left_eq_zip]
    exact List.mem_map.mpr ⟨_, hes, by simp [dropFront, htaken]⟩

theorem Log.length_absorb_le (l : Log) (e : Event) : (l.absorb e).length ≤ l.length + 1 := by
  rcases l.absorb_cases e with ⟨-, h⟩ | ⟨older, last, merged, rfl, -, h⟩
  · exact (congrArg length h).le
  · rw [h]
    exact Nat.le_succ _

namespace MergeLoop

theorem round_eq_step (s : MergeLoop) : s.round =
    s.pending.step.map fun turn => turn.map fun t => ⟨t.2, s.merged.absorb t.1⟩ := by
  rw [Pending.step_eq_choose, round]
  rcases MergeRule.choose s.pending.fronts with err | _ | c <;> rfl

theorem isDrained_iff {s : MergeLoop} :
    s.isDrained = true ↔ ∀ front ∈ s.pending.fronts, front = none := by
  simp [isDrained, Pending.fronts]

theorem isDrained_iff_step {s : MergeLoop} : s.isDrained = true ↔ s.pending.step = .ok none := by
  rw [isDrained_iff]
  refine ⟨fun hall => ?_, Pending.fronts_of_step_none⟩
  -- With no event in front there is none to take, and no two fronts differ.
  rcases s.pending.step_cases with ⟨e, q, -, hturn⟩ | ⟨hstep, -⟩ | ⟨f, hf, g, hg, hne, -⟩
  · obtain ⟨x, hx⟩ := hturn.exists_front
    cases hall _ hx
  · exact hstep
  · exact absurd ((hall f hf).trans (hall g hg).symm) hne

theorem goesOn_of_step {s : MergeLoop} (h : s.pending.step ≠ .ok none) : s.isDrained = false :=
  Bool.eq_false_iff.mpr (mt isDrained_iff_step.mp h)

/-- The loop breaks off only when it is over. -/
theorem round_ne_none {s : MergeLoop} (h : s.isDrained = false) : s.round ≠ .ok none := by
  rw [round_eq_step]
  rcases hstep : s.pending.step with err | _ | t
  · nofun
  · rw [isDrained_iff_step.mpr hstep] at h
    cases h
  · nofun

theorem turn_of_round {s t : MergeLoop} (h : s.round = .ok (some t)) :
    ∃ e, s.pending.step = .ok (some (e, t.pending)) ∧ t.merged = s.merged.absorb e := by
  rw [round_eq_step] at h
  rcases hstep : s.pending.step with err | _ | ⟨e, q⟩
  · rw [hstep] at h
    cases h
  · rw [hstep] at h
    cases h
  · rw [hstep] at h
    cases h
    exact ⟨e, rfl, rfl⟩

theorem losesFronts_of_round {s t : MergeLoop} (h : s.round = .ok (some t)) :
    s.pending.LosesFronts t.pending := by
  obtain ⟨e, hstep, -⟩ := turn_of_round h
  obtain ⟨taken, x, hq, hx, htaken⟩ := (Pending.turn_of_step hstep).exists_taken
  rw [hq]
  exact Pending.losesFronts_advance hx htaken

/-- `n` rounds lead from one state to another. -/
inductive Rounds : MergeLoop → Nat → MergeLoop → Prop where
  | none {s : MergeLoop} : Rounds s 0 s
  | next {s t u : MergeLoop} {n : Nat} (goesOn : s.isDrained = false)
      (round : s.round = .ok (some t)) (later : Rounds t n u) : Rounds s (n + 1) u

theorem Rounds.add_total_le {s t : MergeLoop} {n : Nat} (h : s.Rounds n t) :
    n + t.pending.total ≤ s.pending.total := by
  induction h with
  | none => omega
  | next _ hround _ ih =>
    obtain ⟨e, hstep, -⟩ := turn_of_round hround
    have hlt := Pending.total_lt_of_step hstep
    omega

theorem Rounds.length_merged_le {s t : MergeLoop} {n : Nat} (h : s.Rounds n t) :
    t.merged.length ≤ s.merged.length + n := by
  induction h with
  | none => omega
  | @next s t u n _ hround _ ih =>
    obtain ⟨e, -, hmerged⟩ := turn_of_round hround
    have hle : t.merged.length ≤ s.merged.length + 1 := hmerged ▸ s.merged.length_absorb_le e
    omega

/-- The loop ends, all branches being at their ends or the next round failing. -/
theorem exists_end (s : MergeLoop) : ∃ n t, s.Rounds n t ∧
    ((t.isDrained = true ∧ s.run = some (.ok t)) ∨
      t.isDrained = false ∧ ∃ err, t.round = .error err ∧ s.run = some (.error err)) := by
  -- By induction on what the branches have left, for a round leaves less.
  induction htotal : s.pending.total using Nat.strong_induction_on generalizing s with
  | h total ih =>
    rw [run]
    cases hdrained : s.isDrained with
    | true => exact ⟨0, s, .none, .inl ⟨hdrained, rfl⟩⟩
    | false =>
      rcases hround : s.round with err | _ | t
      · exact ⟨0, s, .none, .inr ⟨hdrained, err, hround, rfl⟩⟩
      · exact absurd hround (round_ne_none hdrained)
      · obtain ⟨e, hstep, -⟩ := turn_of_round hround
        obtain ⟨n, u, hrounds, hend⟩ := ih _ (htotal ▸ Pending.total_lt_of_step hstep) t rfl
        exact ⟨n + 1, u, .next hdrained hround hrounds, hend⟩

/-- The loop puts what the merge gives on top of what it has merged before. -/
theorem run_eq_merge (p : Pending) (l : Log) :
    (run ⟨p, l⟩).map (Except.map merged) = some (p.merge.map l.absorbAll) := by
  induction p using Pending.merge.induct generalizing l with
  | case1 p err hstep =>
    have hround : round ⟨p, l⟩ = .error err := by rw [round_eq_step, hstep]; rfl
    have hgoesOn : isDrained ⟨p, l⟩ = false := goesOn_of_step (by simp [hstep])
    rw [run, hgoesOn, hround, Pending.merge, hstep]
    rfl
  | case2 p hstep =>
    have hdrained : isDrained ⟨p, l⟩ = true := isDrained_iff_step.mpr hstep
    rw [run, hdrained, Pending.merge, hstep]
    rfl
  | case3 p e q hstep ih =>
    have hround : round ⟨p, l⟩ = .ok (some ⟨q, l.absorb e⟩) := by rw [round_eq_step, hstep]; rfl
    have hgoesOn : isDrained ⟨p, l⟩ = false := goesOn_of_step (by simp [hstep])
    have hmerge : p.merge = q.merge.map (e :: ·) := by rw [Pending.merge, hstep]
    rw [run, hgoesOn, hround, hmerge]
    refine (ih (l.absorb e)).trans ?_
    cases q.merge <;> rfl

end MergeLoop

/-- The loop gives the joint log. -/
theorem jointLog?_eq (logs : List Log) : jointLog? logs = some (jointLog logs) := by
  unfold jointLog? jointLog
  split
  · rfl
  · cases logs.mapM Log.compact with
    | error v => rfl
    | ok cs =>
      refine (MergeLoop.run_eq_merge (cs.map Log.toList) ∅).trans ?_
      change _ = some ((Pending.merge (cs.map Log.toList)).bind fun es => .ok (Log.absorbAll ∅ es))
      cases Pending.merge (cs.map Log.toList) <;> rfl

/-- Every round of the merge loop takes a front off a branch, or it fails, and the loop never breaks
off. So it ends after no more rounds than the compact logs have events, with nothing left on any
branch, and the joint log has no more events than they. -/
theorem jointLog?_drains {logs : List Log} (hne : logs ≠ [])
    (hforest : ∀ l ∈ logs, ∃ f, l.forest = .ok f) :
    ∃ cs, logs.mapM Log.compact = .ok cs ∧
      (∀ n s, (MergeLoop.start cs).Rounds n s → s.isDrained = false →
        s.round ≠ .ok none ∧ ∀ t, s.round = .ok (some t) → s.pending.LosesFronts t.pending) ∧
      ∃ n s, (MergeLoop.start cs).Rounds n s ∧ n ≤ (cs.flatMap Log.toList).length ∧
        ((s.isDrained = true ∧ jointLog? logs = some (.ok s.merged) ∧
            s.merged.length ≤ (cs.flatMap Log.toList).length) ∨
          s.isDrained = false ∧ ∃ err, s.round = .error err ∧ jointLog? logs = some (.error err)) := by
  obtain ⟨cs, hcs⟩ := exists_mapM_compact hforest
  have hloop : jointLog? logs = (MergeLoop.start cs).run.map (Except.map MergeLoop.merged) := by
    rw [jointLog?, List.isEmpty_eq_false_iff.mpr hne, hcs]
    rfl
  refine ⟨cs, hcs, fun n s _ hgoesOn =>
    ⟨MergeLoop.round_ne_none hgoesOn, fun t => MergeLoop.losesFronts_of_round⟩, ?_⟩
  obtain ⟨n, s, hrounds, hend⟩ := (MergeLoop.start cs).exists_end
  have htotal : n + s.pending.total ≤ (cs.flatMap Log.toList).length := hrounds.add_total_le
  have hlength : s.merged.length ≤ 0 + n := hrounds.length_merged_le
  refine ⟨n, s, hrounds, by omega, ?_⟩
  rcases hend with ⟨hdrained, hrun⟩ | ⟨hgoesOn, err, hround, hrun⟩
  · exact .inl ⟨hdrained, by rw [hloop, hrun]; rfl, by omega⟩
  · exact .inr ⟨hgoesOn, err, hround, by rw [hloop, hrun]; rfl⟩

open Unaligned in
theorem jointLog?_drains_unaligned :
    [plain, bound] ≠ [] ∧ (∀ l ∈ [plain, bound], ∃ f, l.forest = .ok f) ∧
      ∃ n s, (MergeLoop.start [plain, bound]).Rounds n s ∧ n ≤ 5 ∧ s.isDrained = true ∧
        jointLog? [plain, bound] = some (.ok s.merged) ∧ s.merged.length ≤ 5 := by
  have hforest : ∀ l ∈ [plain, bound], ∃ f, l.forest = .ok f := by
    simp only [List.forall_mem_cons]
    exact ⟨⟨_, rfl⟩, ⟨_, rfl⟩, List.forall_mem_nil _⟩
  have hcompact : [plain, bound].mapM Log.compact = .ok [plain, bound] := by decide +kernel
  have hjoin : (jointLog [plain, bound]).isOk = true := by decide +kernel
  obtain ⟨cs, hcs, -, n, s, hrounds, hn, hend⟩ := jointLog?_drains (by simp) hforest
  obtain rfl : [plain, bound] = cs := Except.ok.inj (hcompact.symm.trans hcs)
  rcases hend with ⟨hdrained, hjoint, hlength⟩ | ⟨-, err, -, herror⟩
  · exact ⟨by simp, hforest, n, s, hrounds, hn, hdrained, hjoint, hlength⟩
  · rw [Option.some.inj ((jointLog?_eq _).symm.trans herror)] at hjoin
    cases hjoin

end ParseLog
