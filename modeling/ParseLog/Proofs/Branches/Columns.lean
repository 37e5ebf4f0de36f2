import Mathlib.Data.List.Forall2
import ParseLog.Proofs.Branches.Echo
import ParseLog.Proofs.Branches.Sharing
import ParseLog.Proofs.Branches.Skeleton
/-!
# Merging column by column

Branches whose compact logs correspond event by event are aligned: every turn takes the front of all
of them. So each place of the joint log holds what the column of events at that place merges to, and
copies of one log join to its compact form.
-/

namespace ParseLog
set_option autoImplicit false

namespace Event

/-- Whether two branches may have the events at one place: chunks, values of one multi-variable, or
one and the same event. -/
inductive Corresponds : Event → Event → Prop where
  | chunks (c c' : Chunk) : Corresponds (.chunk c) (.chunk c')
  | values {a a' : Value} (multi : a.var.isMulti = true) (var : a'.var = a.var) :
      Corresponds (.value a) (.value a')
  | same (e : Event) : Corresponds e e

theorem Corresponds.outline_eq {e x : Event} (h : Corresponds e x) : x.outline = e.outline := by
  cases h with
  | chunks c c' => rfl
  | @values a a' multi var =>
    have hemptied : a'.emptied = a.emptied := by simp [Value.emptied, Variable.emptySet?, var, multi]
    rw [outline, outline, hemptied]
  | same => rfl

theorem isRigid_outline (e : Event) : e.outline.isRigid = e.isRigid := by
  cases e with
  | value a =>
    have hvar : a.emptied.var = a.var := Value.emptied_var a
    cases hmulti : a.var.isMulti <;> simp [outline, isRigid, isChunk, multiValue?, hvar, hmulti]
  | _ => rfl

theorem outline_eq_of_isRigid {e : Event} (h : e.isRigid = true) : e.outline = e := by
  obtain ⟨hchunk, hvalue⟩ := isRigid_iff.mp h
  cases e with
  | chunk c => exact absurd rfl (hchunk c)
  | value a => simp [outline, Value.emptied, Variable.emptySet?, hvalue a rfl]
  | _ => rfl

end Event

namespace Pending

/-- The events of the branches at one place. -/
def column (p : Pending) (place : Nat) : List Event := p.filterMap (·[place]?)

/-- What a column of corresponding events merges to: the chunk of the first branch, the
intersection of the values, or the event itself. -/
inductive Merged (column : List Event) : Event → Prop where
  | chunk {c : Chunk} (first : column.head? = some (.chunk c)) : Merged column (.chunk c)
  | meet {m : Value} (multi : m.var.isMulti = true)
      (values : ∀ e ∈ column, ∃ a, e = .value a ∧ a.var = m.var)
      (symbols : ∀ s, s ∈ m.symbols ↔ ∀ a, .value a ∈ column → s ∈ a.symbols) :
      Merged column (.value m)
  | share {e : Event} (rigid : e.isRigid = true) (all : ∀ x ∈ column, x = e) : Merged column e

theorem column_map_tail (p : Pending) (place : Nat) :
    column (p.map List.tail) place = p.column (place + 1) := by
  simp [column, List.filterMap_map]

theorem column_replicate (n : Nat) (es : List Event) {place : Nat} {e : Event}
    (he : es[place]? = some e) : column (.replicate n es) place = .replicate n e := by
  simp [column, he]

theorem mem_column_zero {p : Pending} {e : Event} : e ∈ p.column 0 ↔ some e ∈ p.fronts := by
  simp [column, fronts, List.mem_filterMap, List.head?_eq_getElem?]

theorem head?_column_zero {x : Event} {later : List Event} {rest : Pending} :
    (column ((x :: later) :: rest) 0).head? = some x := rfl

/-- A turn merges what is in front of aligned branches. -/
theorem merged_turn {p q : Pending} {e : Event} {o : List Event} (h : p.Aligned o)
    (hstep : p.step = .ok (some (e, q))) : Merged (p.column 0) e := by
  cases turn_of_step hstep with
  | chunk front =>
    cases p with
    | nil => cases front
    | cons first rest =>
      obtain ⟨x, later, rfl, hx⟩ := h.front front List.mem_cons_self
      have hchunk : x.isChunk = true := Event.isChunk_of_outline hx
      cases x with
      | chunk c' =>
        rw [step_cons_chunk] at hstep
        cases hstep
        exact .chunk head?_column_zero
      | _ => cases hchunk
  | @meet m _ bound symbols =>
    obtain ⟨hmulti, a, hvar, ha⟩ := bound
    have hvalue : ∀ es ∈ p, ∃ b later, es = .value b :: later ∧ b.var = m.var := by
      intro es hes
      obtain ⟨x, later, rfl, hx⟩ := h.front ha hes
      obtain ⟨b, rfl, hb⟩ := Event.exists_of_outline hx
      exact ⟨b, later, rfl, hb.trans hvar⟩
    refine .meet hmulti (fun x hx => ?_) fun s => ?_
    · obtain ⟨es, hes, hhead⟩ := List.mem_map.mp (mem_column_zero.mp hx)
      obtain ⟨b, later, rfl, hb⟩ := hvalue es hes
      exact ⟨b, (Option.some.inj hhead).symm, hb⟩
    · rw [symbols]
      constructor
      · intro hs b hb
        exact (Value.inFront_value.mp (hs _ (mem_column_zero.mp hb))).2
      · intro hs front hfront
        obtain ⟨es, hes, rfl⟩ := List.mem_map.mp hfront
        obtain ⟨b, later, rfl, hb⟩ := hvalue es hes
        exact Value.inFront_value.mpr ⟨hb, hs b (mem_column_zero.mpr hfront)⟩
  | share _ rigid all =>
    exact .share rigid fun x hx => Option.some.inj (all _ (mem_column_zero.mp hx))

theorem merged_run {p : Pending} {fs o : List Event} (h : p.Run fs) (hp : p ≠ [])
    (ho : p.Aligned o) : fs.length = o.length ∧
      ∀ (place : Nat) (e : Event), fs[place]? = some e → Merged (p.column place) e := by
  induction h generalizing o with
  | @done p hstop =>
    obtain ⟨es, hes⟩ := List.exists_mem_of_ne_nil p hp
    have hnil : es = [] :=
      List.head?_eq_none_iff.mp (fronts_of_step_none hstop _ (mem_fronts hes))
    have ho' : o = [] := by rw [← ho es hes, hnil, List.map_nil]
    simp [ho']
  | @turn p q e fs hstep _ ih =>
    have hq : q = p.map List.tail := eq_map_tail_of_turn ho (turn_of_step hstep)
    have hne : q ≠ [] := by simpa [hq] using hp
    obtain ⟨x, later, rfl⟩ := ho.exists_cons (turn_of_step hstep)
    obtain ⟨hlength, hcolumns⟩ := ih hne (aligned_turn ho (turn_of_step hstep))
    refine ⟨by simpa using hlength, fun place e' he' => ?_⟩
    cases place with
    | zero =>
      obtain rfl : e = e' := by simpa using he'
      exact merged_turn ho hstep
    | succ place =>
      rw [← column_map_tail, ← hq]
      exact hcolumns place e' (by simpa using he')

theorem skeleton_map_outline (es : List Event) : skeleton (es.map Event.outline) = skeleton es := by
  induction es with
  | nil => rfl
  | cons e es ih =>
    have hrigid := Event.isRigid_outline e
    simp only [skeleton, List.map_cons] at ih ⊢
    by_cases he : e.isRigid = true
    · rw [List.filter_cons_of_pos (hrigid.trans he), List.filter_cons_of_pos he, ih,
        Event.outline_eq_of_isRigid he]
    · rw [List.filter_cons_of_neg (hrigid ▸ he), List.filter_cons_of_neg he, ih]

/-- Aligned branches merge, and every column to one event. -/
theorem exists_run_of_aligned {p : Pending} {o : List Event} (hp : p ≠ []) (h : p.Aligned o) :
    ∃ fs, p.Run fs ∧ fs.length = o.length ∧
      ∀ (place : Nat) (e : Event), fs[place]? = some e → Merged (p.column place) e := by
  have hskeleton : ∀ es ∈ p, skeleton es = skeleton o := by
    intro es hes
    rw [← skeleton_map_outline, h es hes]
  obtain ⟨fs, hfs⟩ := run_of_skeleton hskeleton
  exact ⟨fs, hfs, merged_run hfs hp h⟩

/-- Equal events merge to themselves. -/
theorem Merged.eq_of_replicate {n : Nat} {x e : Event} (h : Merged (.replicate (n + 1) x) e) :
    e = x := by
  have hx : x ∈ List.replicate (n + 1) x := by simp
  cases h with
  | chunk first => exact (Option.some.inj first).symm
  | @meet m multi values symbols =>
    obtain ⟨a, rfl, ha⟩ := values x hx
    refine congrArg Event.value (Value.ext_symbols multi ha.symm fun s => ?_)
    rw [symbols]
    constructor
    · exact fun hs => hs a hx
    · intro hs b hb
      obtain rfl : b = a := Event.value.inj (List.eq_of_mem_replicate hb)
      exact hs
  | share _ all => exact (all x hx).symm

end Pending

theorem outline_of_forall₂ {es fs : List Event} (h : List.Forall₂ Event.Corresponds es fs) :
    fs.map Event.outline = es.map Event.outline := by
  induction h with
  | nil => rfl
  | cons hhead _ ih => rw [List.map_cons, List.map_cons, hhead.outline_eq, ih]

theorem jointLog_of_aligned {logs cs : List Log} {o : List Event} (hne : logs ≠ [])
    (hcs : logs.mapM Log.compact = .ok cs) (h : Pending.Aligned (cs.map Log.toList) o) :
    ∃ joint, jointLog logs = .ok joint ∧ joint.toList.length = o.length ∧
      ∀ (place : Nat) (e : Event), joint.toList[place]? = some e →
        Pending.Merged (Pending.column (cs.map Log.toList) place) e := by
  have hpending : cs.map Log.toList ≠ [] := by
    intro hnil
    have hmap := mapM_compact_eq_ok_iff.mp hcs
    rw [List.map_eq_nil_iff.mp hnil] at hmap
    exact hne (List.map_eq_nil_iff.mp hmap)
  obtain ⟨fs, hrun, hlength, hmerged⟩ := Pending.exists_run_of_aligned hpending h
  refine ⟨Log.ofList fs, jointLog_eq_ok_iff.mpr ⟨hne, cs, fs, hcs, hrun, rfl⟩, ?_, ?_⟩
  · rw [Log.toList_ofList, hlength]
  · rw [Log.toList_ofList]
    exact hmerged

theorem jointLog_replicate (l : Log) (n : Nat) :
    jointLog (.replicate (n + 1) l) = JoinError.lift l.compact := by
  cases hc : l.compact with
  | error v =>
    simp only [jointLog, List.replicate_succ, List.mapM_cons, hc]
    rfl
  | ok c =>
    have hcs : (List.replicate (n + 1) l).mapM Log.compact = .ok (.replicate (n + 1) c) := by
      rw [mapM_compact_eq_ok_iff, List.map_replicate, List.map_replicate, hc]
    have haligned : Pending.Aligned ((List.replicate (n + 1) c).map Log.toList)
        (c.toList.map Event.outline) := by
      intro es hes
      rw [List.map_replicate] at hes
      rw [List.eq_of_mem_replicate hes]
    obtain ⟨joint, hjoint, hlength, hmerged⟩ := jointLog_of_aligned (by simp) hcs haligned
    rw [List.length_map] at hlength
    have hsame : joint.toList = c.toList := by
      apply List.ext_getElem hlength
      intro place hplace hplace'
      have hplaced := hmerged place _ (List.getElem?_eq_getElem hplace)
      rw [List.map_replicate, Pending.column_replicate _ _ (List.getElem?_eq_getElem hplace')] at hplaced
      exact hplaced.eq_of_replicate
    rw [hjoint, Log.ext_toList hsame]
    rfl

/-- Branches whose compact logs correspond event by event join to a log of the same length, and each
place of it holds what the column at that place merges to. Copies of one log join to its compact
form. -/
theorem jointLog_columns :
    (∀ logs : List Log, logs ≠ [] → (∀ l ∈ logs, ∃ f, l.forest = .ok f) →
      ∃ cs : List Log, logs.map Log.compact = cs.map .ok ∧
        ((∀ c ∈ cs, ∀ c' ∈ cs, List.Forall₂ Event.Corresponds c.toList c'.toList) →
          ∃ joint, jointLog logs = .ok joint ∧
            (∀ c ∈ cs, joint.toList.length = c.toList.length) ∧
            ∀ (place : Nat) (e : Event), joint.toList[place]? = some e →
              Pending.Merged (Pending.column (cs.map Log.toList) place) e)) ∧
    ∀ (l : Log) (n : Nat), jointLog (.replicate (n + 1) l) = JoinError.lift l.compact := by
  refine ⟨fun logs hne hforest => ?_, jointLog_replicate⟩
  obtain ⟨cs, hcompact⟩ := exists_mapM_compact hforest
  have hcs := mapM_compact_eq_ok_iff.mp hcompact
  refine ⟨cs, hcs, fun haligned => ?_⟩
  cases cs with
  | nil => exact absurd (List.map_eq_nil_iff.mp hcs) hne
  | cons c cs =>
    have houtline : Pending.Aligned ((c :: cs).map Log.toList) (c.toList.map Event.outline) :=
      List.forall_mem_map.mpr fun c' hc' =>
        outline_of_forall₂ (haligned c List.mem_cons_self c' hc')
    obtain ⟨joint, hjoint, hlength, hmerged⟩ := jointLog_of_aligned hne hcompact houtline
    refine ⟨joint, hjoint, fun c' hc' => ?_, hmerged⟩
    rw [hlength, List.length_map, (haligned c List.mem_cons_self c' hc').length_eq]

/-! ### Branches that are aligned but differ in symbols and raw texts -/

namespace Escaped

def branch (symbols : List Symbol) (raw : String) : Log :=
  Log.ofList [.bracket Unaligned.tag, .value (Knowing.value symbols), .chunk ⟨"<", raw⟩]

def branches : List Log :=
  [branch [Knowing.style, Knowing.url] "&lt;", branch [Knowing.script, Knowing.style] "&#60;"]

theorem corresponds (symbols symbols' : List Symbol) (raw raw' : String) :
    List.Forall₂ Event.Corresponds (branch symbols raw).toList (branch symbols' raw').toList := by
  rw [branch, branch, Log.toList_ofList, Log.toList_ofList]
  exact .cons (.same _) (.cons (.values rfl rfl) (.cons (.chunks _ _) .nil))

end Escaped

open Escaped in
theorem jointLog_columns_escaped :
    branches ≠ [] ∧ (∀ l ∈ branches, ∃ f, l.forest = .ok f) ∧
      (∀ c ∈ branches, ∀ c' ∈ branches, List.Forall₂ Event.Corresponds c.toList c'.toList) ∧
      jointLog branches = .ok (branch [Knowing.style] "&lt;") ∧
      ∃ cs : List Log, branches.map Log.compact = cs.map .ok ∧ ∃ joint, jointLog branches = .ok joint ∧
        (∀ c ∈ cs, joint.toList.length = c.toList.length) ∧
        ∀ (place : Nat) (e : Event), joint.toList[place]? = some e →
          Pending.Merged (Pending.column (cs.map Log.toList) place) e := by
  have hne : branches ≠ [] := List.cons_ne_nil _ _
  have hcompact : branches.map Log.compact = branches.map .ok := by decide +kernel
  have haligned : ∀ c ∈ branches, ∀ c' ∈ branches,
      List.Forall₂ Event.Corresponds c.toList c'.toList := by
    simp only [branches, List.forall_mem_cons, List.not_mem_nil, IsEmpty.forall_iff, implies_true,
      and_true, corresponds]
  have hforest : ∀ l ∈ branches, ∃ f, l.forest = .ok f := by
    intro l hl
    obtain ⟨c, -, hc⟩ := compact_mem (mapM_compact_eq_ok_iff.mpr hcompact) hl
    obtain ⟨f, hf, -⟩ := Log.compact_eq_ok_iff.mp hc
    exact ⟨f, hf⟩
  obtain ⟨cs, hcs, hjoins⟩ := jointLog_columns.1 branches hne hforest
  obtain rfl : cs = branches :=
    (List.map_injective_iff.mpr fun _ _ => Except.ok.inj) (hcs.symm.trans hcompact)
  exact ⟨hne, hforest, haligned, by decide +kernel, branches, hcs, hjoins haligned⟩

end ParseLog
