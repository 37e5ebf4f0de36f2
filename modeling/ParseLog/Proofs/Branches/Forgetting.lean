import Mathlib.Data.List.Forall2
import ParseLog.Proofs.Branches.Turn
import ParseLog.Proofs.Forest.Forgetting
/-!
# Raw texts decide nothing

A turn of the merge takes the first chunk in front, whatever its text, and without a chunk in front
there is no raw text to look at. So logs that differ in raw texts only have the same outcomes all the
way: as forests, for a search, when speculation is committed, when they are compacted and when they
are joined.
-/

namespace ParseLog
set_option autoImplicit false

namespace Pending

def forgetRaw (p : Pending) : Pending := p.map (·.map Event.forgetRaw)

section Advance
variable (taken : Event → Bool) (h : ∀ e : Event, taken e.forgetRaw = taken e)
include h

theorem dropFront_forgetRaw (es : List Event) :
    dropFront taken (es.map Event.forgetRaw) = (dropFront taken es).map Event.forgetRaw := by
  cases es with
  | nil => rfl
  | cons e later =>
    simp only [dropFront, List.map_cons, h]
    split <;> rfl

theorem advance_forgetRaw (p : Pending) :
    p.forgetRaw.advance taken = (p.advance taken).forgetRaw := by
  simp [advance, forgetRaw, dropFront_forgetRaw taken h]

end Advance

theorem fronts_forgetRaw (p : Pending) :
    p.forgetRaw.fronts = p.fronts.map (Option.map Event.forgetRaw) := by
  simp [fronts, forgetRaw, List.head?_map]

/-- What a turn yields, without raw texts. -/
def forgetTurn : Option (Event × Pending) → Option (Event × Pending) :=
  Option.map (Prod.map Event.forgetRaw forgetRaw)

theorem chunk?_forgetRaw (p : Pending) :
    p.forgetRaw.fronts.findSome? (·.bind Event.chunk?) =
      (p.fronts.findSome? (·.bind Event.chunk?)).map Event.forgetRaw := by
  rw [fronts_forgetRaw]
  induction p.fronts with
  | nil => rfl
  | cons front fronts ih =>
    rw [List.map_cons, List.findSome?_cons, List.findSome?_cons, ih]
    cases front with
    | none => rfl
    | some e => cases e <;> rfl

section Chunkless
variable {p : Pending} (h : p.fronts.findSome? (·.bind Event.chunk?) = none)
include h

theorem isChunk_front {e : Event} (he : some e ∈ p.fronts) : e.isChunk = false := by
  have hnone := List.findSome?_eq_none_iff.mp h _ he
  cases e <;> first | rfl | cases hnone

theorem map_forgetRaw_front {front : Option Event} (hfront : front ∈ p.fronts) :
    front.map Event.forgetRaw = front := by
  cases front with
  | none => rfl
  | some e => exact congrArg some (Event.forgetRaw_of_not_chunk (isChunk_front h hfront))

theorem fronts_forgetRaw_eq : p.forgetRaw.fronts = p.fronts := by
  rw [fronts_forgetRaw]
  exact (List.map_congr_left fun _ hfront => map_forgetRaw_front h hfront).trans (List.map_id _)

end Chunkless

theorem step_forgetRaw (p : Pending) : p.forgetRaw.step = p.step.map forgetTurn := by
  cases hchunk : p.fronts.findSome? (·.bind Event.chunk?) with
  | some e =>
    simp only [step, chunk?_forgetRaw, hchunk, Option.map_some,
      advance_forgetRaw Event.isChunk Event.isChunk_forgetRaw]
    rfl
  | none =>
    have hfronts := fronts_forgetRaw_eq hchunk
    cases hmulti : p.fronts.findSome? (·.bind Event.multiValue?) with
    | some first =>
      simp only [step, hfronts, hchunk, hmulti]
      cases p.fronts.foldlM Value.meetFront first with
      | error v => rfl
      | ok m =>
        have hadvance := advance_forgetRaw (·.sets m.var) (fun e => e.sets_forgetRaw m.var) p
        exact congrArg (fun q => Except.ok (some (Event.value m, q))) hadvance
    | none =>
      simp only [step, hfronts, hchunk, hmulti]
      cases hshared : sharedFront p.fronts with
      | error err => rfl
      | ok front =>
        cases front with
        | none => rfl
        | some e =>
          have he := isChunk_front hchunk (mem_fronts_of_sharedFront hshared)
          have hadvance := advance_forgetRaw (· = e)
            (fun x => decide_eq_decide.mpr (Event.forgetRaw_eq_iff he)) p
          have htaken : e = e.forgetRaw := (Event.forgetRaw_of_not_chunk he).symm
          exact congrArg (fun t => Except.ok (some t)) (Prod.ext htaken hadvance)

theorem merge_forgetRaw (p : Pending) :
    p.forgetRaw.merge = p.merge.map (List.map Event.forgetRaw) := by
  induction p using merge.induct with
  | case1 p err hstep =>
    rw [merge, merge, step_forgetRaw, hstep]
    rfl
  | case2 p hstep =>
    rw [merge, merge, step_forgetRaw, hstep]
    rfl
  | case3 p e q hstep ih =>
    have hturn : p.forgetRaw.step = .ok (some (e.forgetRaw, q.forgetRaw)) := by
      rw [step_forgetRaw, hstep]
      rfl
    rw [merge, merge, hturn, hstep]
    simp only [ih]
    cases q.merge <;> rfl

end Pending

theorem mapM_compact_forgetRaw (logs : List Log) :
    (logs.map Log.forgetRaw).mapM Log.compact =
      (logs.mapM Log.compact).map (List.map Log.forgetRaw) := by
  induction logs with
  | nil => rfl
  | cons l logs ih =>
    rw [List.map_cons, List.mapM_cons, List.mapM_cons, Log.compact_forgetRaw, ih]
    cases l.compact with
    | error v => rfl
    | ok c => cases logs.mapM Log.compact <;> rfl

theorem jointLog_forgetRaw (logs : List Log) :
    jointLog (logs.map Log.forgetRaw) = (jointLog logs).map Log.forgetRaw := by
  unfold jointLog
  rw [List.isEmpty_map, mapM_compact_forgetRaw]
  cases logs.isEmpty with
  | true => rfl
  | false =>
    cases logs.mapM Log.compact with
    | error v => rfl
    | ok cs =>
      have hpending : (cs.map Log.forgetRaw).map Log.toList =
          Pending.forgetRaw (cs.map Log.toList) := by
        simp [Pending.forgetRaw]
      have hmerge := Pending.merge_forgetRaw (cs.map Log.toList)
      rw [← hpending] at hmerge
      simp only [JoinError.lift, Except.map, Except.mapError, bind, Except.bind, hmerge]
      cases Pending.merge (cs.map Log.toList) with
      | error err => rfl
      | ok es => exact congrArg Except.ok (Log.forgetRaw_absorbAll ∅ es).symm

/-- Whether both fail alike or both give logs that are alike. -/
def AlikeOutcomes {ε : Type} : Except ε Log → Except ε Log → Prop
  | .ok l, .ok l' => l.Alike l'
  | .error e, .error e' => e = e'
  | _, _ => False

theorem alikeOutcomes_iff {ε : Type} {r r' : Except ε Log} :
    AlikeOutcomes r r' ↔ r.map Log.forgetRaw = r'.map Log.forgetRaw := by
  cases r <;> cases r' <;> simp [AlikeOutcomes, Except.map, Log.alike_iff]

/-- What commutes with forgetting raw texts has like outcomes on logs that are alike. -/
theorem Log.Alike.outcomes {ε : Type} (act : Log → Except ε Log)
    (hact : ∀ l : Log, act l.forgetRaw = (act l).map Log.forgetRaw) {l l' : Log} (h : l.Alike l') :
    AlikeOutcomes (act l) (act l') := by
  rw [alikeOutcomes_iff, ← hact, ← hact, Log.alike_iff.mp h]

theorem map_forgetRaw_of_alike {logs logs' : List Log} (h : List.Forall₂ Log.Alike logs logs') :
    logs.map Log.forgetRaw = logs'.map Log.forgetRaw := by
  induction h with
  | nil => rfl
  | cons hl _ ih => rw [List.map_cons, List.map_cons, Log.alike_iff.mp hl, ih]

/-- Raw texts decide nothing but what goes back to the input. -/
theorem outcomes_of_alike :
    (∀ l l' : Log, l.Alike l' →
      (∀ lvl, l.forest.map (·.render lvl) = l'.forest.map (·.render lvl)) ∧
      (∀ v, l.binding v = l'.binding v) ∧
      (∀ m, AlikeOutcomes (l.commit m) (l'.commit m)) ∧
      AlikeOutcomes l.compact l'.compact) ∧
    ∀ logs logs' : List Log, List.Forall₂ Log.Alike logs logs' →
      AlikeOutcomes (jointLog logs) (jointLog logs') := by
  constructor
  · intro l l' h
    have hforget := Log.alike_iff.mp h
    refine ⟨fun lvl => ?_, fun v => ?_, fun m => ?_, h.outcomes _ Log.compact_forgetRaw⟩
    · have hrender : ∀ l : Log,
          l.forgetRaw.forest.map (·.render lvl) = l.forest.map (·.render lvl) := by
        intro l
        rw [Log.forest_forgetRaw]
        cases l.forest with
        | error v => rfl
        | ok f => exact congrArg Except.ok (f.render_forgetRaw lvl)
      rw [← hrender l, ← hrender l', hforget]
    · rw [← l.binding_forgetRaw, ← l'.binding_forgetRaw, hforget]
    · exact h.outcomes (·.commit m) fun l => l.commit_forgetRaw m
  · intro logs logs' h
    rw [alikeOutcomes_iff, ← jointLog_forgetRaw, ← jointLog_forgetRaw, map_forgetRaw_of_alike h]

/-! ### Texts that stand encoded in one of two logs -/

namespace Entities

def cell : Event := .bracket ⟨.left, .boundary ⟨"Cell", by decide +kernel⟩⟩

def plain : Log :=
  Log.ofList [cell, .chunk (.plain "<"), .marker .branch, .chunk (.plain "b")]

def encoded : Log :=
  Log.ofList [cell, .chunk ⟨"<", "&lt;"⟩, .marker .branch, .chunk ⟨"b", "&#98;"⟩]

end Entities

theorem outcomes_of_alike_entities :
    Entities.plain.Alike Entities.encoded ∧ Entities.plain ≠ Entities.encoded ∧
      AlikeOutcomes (Entities.plain.commit .branch) (Entities.encoded.commit .branch) ∧
      AlikeOutcomes (jointLog [Entities.plain, Entities.encoded])
        (jointLog [Entities.encoded, Entities.plain]) := by
  have halike : Entities.plain.Alike Entities.encoded := by decide
  have hlogs : List.Forall₂ Log.Alike [Entities.plain, Entities.encoded]
      [Entities.encoded, Entities.plain] := .cons halike (.cons halike.symm .nil)
  refine ⟨halike, by decide, ?_, outcomes_of_alike.2 _ _ hlogs⟩
  exact (outcomes_of_alike.1 _ _ halike).2.2.1 .branch

end ParseLog
