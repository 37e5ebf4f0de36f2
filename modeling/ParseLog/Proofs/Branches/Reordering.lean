import Mathlib.Data.List.Perm.Basic
import ParseLog.Proofs.Branches.Alignment
import ParseLog.Proofs.Branches.Skeleton
import ParseLog.Proofs.Log.Searching
/-!
# The order of the branches

The merge of reordered branches takes the same events up to the texts of chunks, as long as no turn
finds values of two multi-variables in front and no chunk. At such a clash the branch that comes
first decides which variable is taken, so that some order of the branches gives another joint log.
-/

namespace ParseLog
set_option autoImplicit false

/-- The event with a blank text if it is a chunk. -/
def Event.mute : Event → Event
  | chunk _ => chunk .blank
  | e => e

theorem Event.mute_eq_of_not_chunk {e : Event} (h : e.isChunk = false) : e.mute = e := by
  cases e <;> first | rfl | cases h

@[simp] theorem Event.isChunk_mute (e : Event) : e.mute.isChunk = e.isChunk := by
  cases e <;> rfl

def withoutChunks (es : List Event) : List Event := es.filter fun e => !e.isChunk

theorem withoutChunks_cons (e : Event) (es : List Event) :
    withoutChunks (e :: es) = withoutChunks [e] ++ withoutChunks es := by
  unfold withoutChunks
  rw [← List.filter_append, List.singleton_append]

theorem withoutChunks_singleton {e e' : Event} (h : e.mute = e'.mute) :
    withoutChunks [e] = withoutChunks [e'] := by
  cases e <;> cases e' <;> simp_all [Event.mute, withoutChunks, Event.isChunk]

theorem withoutChunks_map_mute (es : List Event) :
    withoutChunks (es.map Event.mute) = withoutChunks es := by
  induction es with
  | nil => rfl
  | cons e es ih =>
    unfold withoutChunks at ih
    by_cases he : e.isChunk = true
    · simp [withoutChunks, he, ih]
    · have he' : e.isChunk = false := by simpa using he
      simp [withoutChunks, he', ih, Event.mute_eq_of_not_chunk he']

theorem exists_map_perm {α β : Type} {f : α → β} {l : List α} {l' : List β}
    (h : l'.Perm (l.map f)) : ∃ l₀ : List α, l₀.map f = l' ∧ l₀.Perm l := by
  obtain ⟨l₀, hl', hperm⟩ := (congrFun (congrFun (List.eq_map_comp_perm f) l') l).mpr h
  exact ⟨l₀, hl'.symm, hperm⟩

namespace Pending

/-- Whether values of two multi-variables are in front, and no chunk. -/
def Contended (p : Pending) : Prop := ¬ p.HasChunk ∧ ∃ v w, p.Binds v ∧ p.Binds w ∧ v ≠ w

/-- Whether the merge comes to a turn that is contended. -/
inductive Clashes : Pending → Prop where
  | here {p : Pending} (contended : p.Contended) : Clashes p
  | later {p q : Pending} {e : Event} (step : p.step = .ok (some (e, q))) (clash : Clashes q) :
      Clashes p

section Reordered
variable {p p' : Pending} (hp : p'.Perm p)
include hp

theorem mem_fronts_perm {front : Option Event} : front ∈ p'.fronts ↔ front ∈ p.fronts :=
  (hp.map List.head?).mem_iff

theorem hasChunk_perm : p'.HasChunk ↔ p.HasChunk := by
  simp only [HasChunk, mem_fronts_perm hp]

theorem binds_perm {v : Variable} : p'.Binds v ↔ p.Binds v := by
  simp only [Binds, mem_fronts_perm hp]

theorem settled_perm : p'.Settled ↔ p.Settled := by
  simp only [Settled, hasChunk_perm hp, binds_perm hp]

theorem step_none_perm (h : p.step = .ok none) : p'.step = .ok none := by
  have hall := fronts_of_step_none h
  rcases step_cases p' with ⟨e, q, -, hturn⟩ | ⟨hstep, -⟩ | ⟨f, hf, g, hg, hne, -, -⟩
  · exfalso
    cases hturn with
    | chunk front => cases hall _ ((mem_fronts_perm hp).mp front)
    | meet _ bound =>
      obtain ⟨-, a, -, ha⟩ := bound
      cases hall _ ((mem_fronts_perm hp).mp ha)
    | share _ _ shared nonempty =>
      obtain ⟨es, hes⟩ := List.exists_mem_of_ne_nil _ nonempty
      have hfront := mem_fronts hes
      have hnone := hall _ ((mem_fronts_perm hp).mp hfront)
      cases hnone.symm.trans (shared _ hfront)
  · exact hstep
  · exfalso
    apply hne
    rw [hall _ ((mem_fronts_perm hp).mp hf), hall _ ((mem_fronts_perm hp).mp hg)]

end Reordered

/-- An uncontended turn takes the same in any order of the branches, up to the text of a chunk. -/
theorem step_perm {p q : Pending} {e : Event} (hstep : p.step = .ok (some (e, q)))
    (h : ¬ p.Contended) :
    ∃ taken, q = p.advance taken ∧ ∀ p' : Pending, p'.Perm p →
      ∃ e', e'.mute = e.mute ∧ p'.step = .ok (some (e', p'.advance taken)) := by
  cases turn_of_step hstep with
  | chunk front =>
    refine ⟨_, rfl, fun p' hp => ?_⟩
    obtain ⟨c, -, hstep'⟩ := step_of_hasChunk ((hasChunk_perm hp).mpr ⟨_, front⟩)
    exact ⟨.chunk c, rfl, hstep'⟩
  | @meet m noChunk bound symbols =>
    refine ⟨_, rfl, fun p' hp => ?_⟩
    obtain ⟨m', hbinds, hsymbols, hstep'⟩ :=
      step_of_binds (mt (hasChunk_perm hp).mp noChunk) ((binds_perm hp).mpr bound)
    -- Both orders take the same variable, else the turn were contended.
    have hvar : m'.var = m.var := by
      by_contra hne
      exact h ⟨noChunk, _, _, (binds_perm hp).mp hbinds, bound, hne⟩
    have heq : m' = m := by
      apply Value.ext_symbols hbinds.1 hvar
      intro s
      rw [hsymbols, symbols, hvar]
      simp only [mem_fronts_perm hp]
    subst heq
    exact ⟨_, rfl, hstep'⟩
  | share settled _ all nonempty =>
    refine ⟨_, rfl, fun p' hp => ⟨e, rfl, ?_⟩⟩
    obtain ⟨es, hes⟩ := List.exists_mem_of_ne_nil _ nonempty
    have hfront : some e ∈ p'.fronts :=
      (mem_fronts_perm hp).mpr (all _ (mem_fronts hes) ▸ mem_fronts hes)
    rw [step_of_settled ((settled_perm hp).mpr settled)]
    rcases sharedFront_cases p'.fronts with ⟨front, hshared, hall⟩ | ⟨f, hf, g, hg, hne, -⟩
    · rw [hshared, ← hall _ hfront]
      rfl
    · exact absurd ((all f ((mem_fronts_perm hp).mp hf)).trans
        (all g ((mem_fronts_perm hp).mp hg)).symm) hne

/-- A merge without a clash takes the same in any order of the branches, up to the texts of
chunks. -/
theorem run_perm {p : Pending} {fs : List Event} (hrun : p.Run fs) (h : ¬ p.Clashes) :
    ∀ p' : Pending, p'.Perm p → ∃ fs', p'.Run fs' ∧ fs'.map Event.mute = fs.map Event.mute := by
  induction hrun with
  | done hstop => exact fun p' hp => ⟨[], .done (step_none_perm hp hstop), rfl⟩
  | @turn p q e fs hstep _ ih =>
    intro p' hp
    obtain ⟨taken, rfl, hperm⟩ := step_perm hstep fun hc => h (.here hc)
    obtain ⟨e', hmute, hstep'⟩ := hperm p' hp
    have hclash : ¬ (p.advance taken).Clashes := fun hc => h (.later hstep hc)
    obtain ⟨fs', hrun', hmutes⟩ := ih hclash (p'.advance taken) (hp.map _)
    exact ⟨e' :: fs', .turn hstep' hrun', by simp only [List.map_cons, hmute, hmutes]⟩

/-- The branch that comes first decides which of the variables in front is taken. -/
theorem exists_perm_step {p : Pending} (h : ¬ p.HasChunk) {v : Variable} (hv : p.Binds v) :
    ∃ p' : Pending, p'.Perm p ∧ ∃ m q, m.var = v ∧ p'.step = .ok (some (.value m, q)) := by
  obtain ⟨hmulti, a, rfl, ha⟩ := hv
  obtain ⟨es, hes, hhead⟩ := List.mem_map.mp ha
  obtain ⟨before, after, rfl⟩ := List.append_of_mem hes
  have hp : (es :: (before ++ after)).Perm (before ++ es :: after) := List.perm_middle.symm
  have hfirst :
      (fronts (es :: (before ++ after))).findSome? (·.bind Event.multiValue?) = some a := by
    simp [fronts, hhead, Event.multiValue?, hmulti]
  obtain ⟨m, hvar, -, -, hstep⟩ := step_of_multiValue? (mt (hasChunk_perm hp).mp h) hfirst
  exact ⟨_, hp, m, _, hvar, hstep⟩

/-- Whether two orders of the branches give merges that differ in more than the texts of chunks. -/
def OrderMatters (p : Pending) : Prop :=
  ∃ p₁ p₂ fs₁ fs₂, p₁.Perm p ∧ p₂.Perm p ∧ Run p₁ fs₁ ∧ Run p₂ fs₂ ∧
    withoutChunks fs₁ ≠ withoutChunks fs₂

theorem orderMatters_of_contended {p : Pending} (h : p.Contended)
    (hrun : ∀ p' : Pending, p'.Perm p → ∃ fs, p'.Run fs) : p.OrderMatters := by
  obtain ⟨hchunk, v, w, hv, hw, hne⟩ := h
  obtain ⟨p₁, hp₁, m₁, q₁, rfl, hstep₁⟩ := exists_perm_step hchunk hv
  obtain ⟨p₂, hp₂, m₂, q₂, rfl, hstep₂⟩ := exists_perm_step hchunk hw
  obtain ⟨fs₁, hrun₁⟩ := hrun p₁ hp₁
  obtain ⟨fs₂, hrun₂⟩ := hrun p₂ hp₂
  refine ⟨p₁, p₂, fs₁, fs₂, hp₁, hp₂, hrun₁, hrun₂, ?_⟩
  obtain ⟨later₁, rfl, -⟩ := hrun₁.of_step hstep₁
  obtain ⟨later₂, rfl, -⟩ := hrun₂.of_step hstep₂
  intro heq
  have hvalue : Event.value m₁ = Event.value m₂ := (List.cons.inj heq).1
  exact hne (congrArg Value.var (Event.value.inj hvalue))

/-- Some order of the branches shows every clash. -/
theorem orderMatters_of_clashes {p : Pending} (h : p.Clashes)
    (hrun : ∀ p' : Pending, p'.Perm p → ∃ fs, p'.Run fs) : p.OrderMatters := by
  induction h with
  | here hcontended => exact orderMatters_of_contended hcontended hrun
  | @later p q e hstep _ ih =>
    by_cases hcontended : p.Contended
    · exact orderMatters_of_contended hcontended hrun
    obtain ⟨taken, rfl, hperm⟩ := step_perm hstep hcontended
    -- A reordering of what the turn leaves comes from one of the branches before the turn.
    have hlift : ∀ q' : Pending, q'.Perm (p.advance taken) →
        ∃ (p' : Pending) (e' : Event),
          p'.Perm p ∧ e'.mute = e.mute ∧ p'.step = .ok (some (e', q')) := by
      intro q' hq'
      obtain ⟨p', rfl, hp'⟩ := exists_map_perm hq'
      obtain ⟨e', hmute, hstep'⟩ := hperm p' hp'
      exact ⟨p', e', hp', hmute, hstep'⟩
    have hruns : ∀ q' : Pending, q'.Perm (p.advance taken) → ∃ fs, q'.Run fs := by
      intro q' hq'
      obtain ⟨p', e', hp', -, hstep'⟩ := hlift q' hq'
      obtain ⟨fs, hfs⟩ := hrun p' hp'
      obtain ⟨later, -, hlater⟩ := hfs.of_step hstep'
      exact ⟨later, hlater⟩
    obtain ⟨q₁, q₂, fs₁, fs₂, hq₁, hq₂, hrun₁, hrun₂, hne⟩ := ih hruns
    obtain ⟨p₁, e₁, hp₁, hmute₁, hstep₁⟩ := hlift q₁ hq₁
    obtain ⟨p₂, e₂, hp₂, hmute₂, hstep₂⟩ := hlift q₂ hq₂
    refine ⟨p₁, p₂, e₁ :: fs₁, e₂ :: fs₂, hp₁, hp₂, .turn hstep₁ hrun₁, .turn hstep₂ hrun₂, ?_⟩
    intro heq
    rw [withoutChunks_cons e₁, withoutChunks_cons e₂,
      withoutChunks_singleton (hmute₁.trans hmute₂.symm)] at heq
    exact hne (List.append_cancel_left heq)

theorem not_clashes_of_aligned {p : Pending} {o : List Event} (h : p.Aligned o) : ¬ p.Clashes := by
  intro hclash
  induction hclash generalizing o with
  | @here p hcontended =>
    obtain ⟨-, v, w, ⟨-, a, rfl, ha⟩, ⟨-, b, rfl, hb⟩, hne⟩ := hcontended
    obtain ⟨es, hes, hhead⟩ := List.mem_map.mp ha
    obtain ⟨x, later, rfl, hx⟩ := h.front hb hes
    obtain rfl : x = .value a := by simpa using hhead
    exact hne (Event.outline_eq_value hx)
  | later hstep _ ih => exact ih (aligned_turn h (turn_of_step hstep))

theorem Run.unique {p : Pending} {fs fs' : List Event} (h : p.Run fs) (h' : p.Run fs') :
    fs = fs' := by
  rw [← merge_eq_ok_iff] at h h'
  exact Except.ok.inj (h.symm.trans h')

end Pending

theorem Log.binding_eq_of_withoutChunks {l l' : Log} (v : Variable)
    (h : withoutChunks l.toList = withoutChunks l'.toList) : l.binding v = l'.binding v := by
  have hrecent : withoutChunks l.recent = withoutChunks l'.recent := by
    simpa [withoutChunks, toList] using h
  have hkeep : ∀ e : Event, (!e.isChunk) = false →
      e.scopeSide? (·.delimits v) = none ∧ e.sets v = false := by
    intro e he
    cases e <;> simp_all [Event.isChunk, Event.scopeSide?, Event.sets]
  unfold withoutChunks at hrecent
  unfold binding findInScope
  rw [← lookBack_filter hkeep l.recent, ← lookBack_filter hkeep l'.recent, hrecent]

section Logs
variable {logs logs' : List Log}

theorem exists_jointLog_perm (hp : logs'.Perm logs) :
    (∃ c, jointLog logs' = .ok c) ↔ ∃ c, jointLog logs = .ok c := by
  by_cases hne : logs = []
  · subst hne
    rw [hp.eq_nil]
  · have hne' : logs' ≠ [] := by
      rintro rfl
      exact hne hp.symm.eq_nil
    rw [exists_jointLog_iff hne', exists_jointLog_iff hne]
    simp only [hp.mem_iff]

theorem pending_perm (hp : logs'.Perm logs) {cs cs' : List Log}
    (hcs : logs.mapM Log.compact = .ok cs) (hcs' : logs'.mapM Log.compact = .ok cs') :
    (cs'.map Log.toList).Perm (cs.map Log.toList) := by
  have hcompact := hp.map Log.compact
  rw [mapM_compact_eq_ok_iff.mp hcs, mapM_compact_eq_ok_iff.mp hcs'] at hcompact
  have hinj : Function.Injective (Except.ok (ε := Violation) (α := Log)) := fun _ _ => Except.ok.inj
  exact ((List.map_perm_map_iff hinj).mp hcompact).map Log.toList

/-- Every order of the compact logs is that of some order of the branches. -/
theorem jointLog_of_perm_pending {cs : List Log} (hne : logs ≠ [])
    (hcs : logs.mapM Log.compact = .ok cs) {p : Pending} (hp : p.Perm (cs.map Log.toList))
    {fs : List Event} (hrun : p.Run fs) :
    ∃ logs' : List Log, logs'.Perm logs ∧ jointLog logs' = .ok (Log.ofList fs) := by
  obtain ⟨cs', rfl, hcs'⟩ := exists_map_perm hp
  have hok : (cs'.map Except.ok).Perm (logs.map Log.compact) :=
    mapM_compact_eq_ok_iff.mp hcs ▸ hcs'.map Except.ok
  obtain ⟨logs', hlogs', hperm⟩ := exists_map_perm hok
  have hne' : logs' ≠ [] := by
    rintro rfl
    exact hne hperm.symm.eq_nil
  exact ⟨logs', hperm, jointLog_eq_ok_iff.mpr
    ⟨hne', cs', fs, mapM_compact_eq_ok_iff.mpr hlogs', hrun, rfl⟩⟩

end Logs

/-- Whether the merge of the compact logs comes to a turn that is contended. -/
def JointClash (logs : List Log) : Prop :=
  ∃ cs, logs.mapM Log.compact = .ok cs ∧ Pending.Clashes (cs.map Log.toList)

/-- Branches join in every order or in none, and all orders give one joint log, but for the texts of
its chunks, exactly if no turn is contended; aligned branches never come to such a turn. -/
theorem jointLog_perm_iff (logs : List Log) :
    (∀ logs' : List Log, logs'.Perm logs →
      ((∃ c, jointLog logs' = .ok c) ↔ ∃ c, jointLog logs = .ok c)) ∧
    (∀ c, jointLog logs = .ok c →
      ((∀ logs' c', logs'.Perm logs → jointLog logs' = .ok c' →
        withoutChunks c'.toList = withoutChunks c.toList ∧ ∀ v, c'.binding v = c.binding v) ↔
      ¬ JointClash logs)) ∧
    (LogsAligned logs → ¬ JointClash logs) := by
  refine ⟨fun logs' hp => exists_jointLog_perm hp, ?_, ?_⟩
  · intro c hc
    obtain ⟨hne, cs, fs, hcs, hrun, rfl⟩ := jointLog_eq_ok_iff.mp hc
    constructor
    · rintro hsame ⟨cs', hcs', hclash⟩
      obtain rfl : cs' = cs := Except.ok.inj (hcs'.symm.trans hcs)
      have hruns : ∀ p : Pending, p.Perm (cs'.map Log.toList) → ∃ fs', p.Run fs' :=
        fun p hp => Pending.run_of_skeleton
          fun es hes => Pending.skeleton_run hrun es (hp.mem_iff.mp hes)
      obtain ⟨p₁, p₂, fs₁, fs₂, hp₁, hp₂, hrun₁, hrun₂, hdiffer⟩ :=
        Pending.orderMatters_of_clashes hclash hruns
      obtain ⟨logs₁, hlogs₁, hc₁⟩ := jointLog_of_perm_pending hne hcs hp₁ hrun₁
      obtain ⟨logs₂, hlogs₂, hc₂⟩ := jointLog_of_perm_pending hne hcs hp₂ hrun₂
      have h₁ := (hsame logs₁ _ hlogs₁ hc₁).1
      have h₂ := (hsame logs₂ _ hlogs₂ hc₂).1
      rw [Log.toList_ofList] at h₁ h₂
      exact hdiffer (h₁.trans h₂.symm)
    · intro hno logs' c' hp hc'
      obtain ⟨-, cs', fs', hcs', hrun', rfl⟩ := jointLog_eq_ok_iff.mp hc'
      have hclash : ¬ Pending.Clashes (cs.map Log.toList) := fun hclash => hno ⟨cs, hcs, hclash⟩
      obtain ⟨fs'', hrun'', hmute⟩ :=
        Pending.run_perm hrun hclash _ (pending_perm hp hcs hcs')
      obtain rfl := hrun''.unique hrun'
      have hevents :
          withoutChunks (Log.ofList fs'').toList = withoutChunks (Log.ofList fs).toList := by
        rw [Log.toList_ofList, Log.toList_ofList, ← withoutChunks_map_mute fs'', hmute,
          withoutChunks_map_mute]
      exact ⟨hevents, fun v => Log.binding_eq_of_withoutChunks v hevents⟩
  · rintro haligned ⟨cs, hcs, hclash⟩
    obtain ⟨o, ho⟩ := haligned.pending hcs
    exact Pending.not_clashes_of_aligned ho hclash

open Unaligned in
/-- With two variables bound on either side of a bracket, the order of two branches decides which of
the variables keeps its symbols. -/
theorem exists_jointLog_order_matters :
    ∃ (logs logs' : List Log) (c c' : Log) (v : Variable), logs'.Perm logs ∧
      jointLog logs = .ok c ∧ jointLog logs' = .ok c' ∧
        withoutChunks c'.toList ≠ withoutChunks c.toList ∧ c'.binding v ≠ c.binding v := by
  refine ⟨[nested url style, nested style url], [nested style url, nested url style],
    Log.ofList [.value url.emptied, .value style, .value url.emptied],
    Log.ofList [.value style.emptied, .value url, .value style.emptied], url.var,
    List.Perm.swap .., ?_⟩
  decide +kernel

end ParseLog
