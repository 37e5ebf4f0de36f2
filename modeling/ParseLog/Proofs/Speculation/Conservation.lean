import ParseLog.Log.Compaction
import ParseLog.Proofs.Input.Cutting
import ParseLog.Proofs.Log.Resolving
/-!
# Input is conserved

A parse has a log and the input that it goes on with. Whatever it does, the raw text on the log and
the rest of the input together stay the same: text moves from the input to the log and back, and none
is lost, repeated or put elsewhere.
-/

namespace ParseLog
set_option autoImplicit false

structure Parse where
  log : Log
  input : Input
  deriving DecidableEq

/-- What a parse can do next. Only chunks account for input, so they are eaten and not just added. -/
inductive Action where
  | eat (c : Chunk)
  | eatAbsorbing (c : Chunk)
  | append (e : Event) (silent : e.isChunk = false)
  | absorb (e : Event) (silent : e.isChunk = false)
  | mark (m : Marker)
  | rollback (m : Marker)
  | commit (m : Marker)
  | commitRound
  | compact

namespace Parse

def mark (p : Parse) (m : Marker) : Parse := ⟨p.log.mark m, p.input⟩

/-- The parse after an action; nothing if it fails. -/
def act? (p : Parse) : Action → Option Parse
  | .eat c => (p.input.consume? c.raw).map fun i => ⟨p.log.append (.chunk c), i⟩
  | .eatAbsorbing c => (p.input.consume? c.raw).map fun i => ⟨p.log.absorb (.chunk c), i⟩
  | .append e _ => some ⟨p.log.append e, p.input⟩
  | .absorb e _ => some ⟨p.log.absorb e, p.input⟩
  | .mark m => some (p.mark m)
  | .rollback m => (p.log.rollback m p.input).toOption.map fun r => ⟨r.1, r.2⟩
  | .commit m => (p.log.commit m).toOption.map fun l => ⟨l, p.input⟩
  | .commitRound => p.log.commitRound.toOption.map fun r => ⟨r.1, p.input⟩
  | .compact => p.log.compact.toOption.map fun l => ⟨l, p.input⟩

/-- The parse after the actions in order; an action that fails leaves the parse as it was. -/
def run (p : Parse) (as : List Action) : Parse := as.foldl (fun p a => (p.act? a).getD p) p

/-- The text consumed so far, as the log has it, and the text to come. -/
def total (p : Parse) : String := rawText p.log.toList ++ p.input.rest

theorem toOption_eq_some_iff {ε α : Type} {x : Except ε α} {a : α} :
    x.toOption = some a ↔ x = .ok a := by
  cases x <;> simp [Except.toOption]

theorem toOption_map {ε α β : Type} (f : α → β) (x : Except ε α) :
    (x.map f).toOption = x.toOption.map f := by
  cases x <;> rfl

theorem act?_commitRound (p : Parse) : p.act? .commitRound = p.act? (.commit .loop) := by
  simp only [act?, ← Log.map_fst_commitRound, toOption_map, Option.map_map]
  rfl

theorem transcript_append_event (l : Log) (e : Event) :
    transcript (l.append e).toList = transcript l.toList ++ e.text := by
  rw [Log.toList_append, transcript_append, transcript_cons, transcript_nil, Chunk.append_blank]

section Steps
variable {p : Parse} {l : Log}

theorem total_eat {i : Input} {c : Chunk} (hi : p.input.consume? c.raw = some i)
    (hl : transcript l.toList = transcript p.log.toList ++ Event.text (.chunk c)) :
    (⟨l, i⟩ : Parse).total = p.total ∧ i.complete = p.input.complete := by
  obtain ⟨hrest, -, hcomplete⟩ := p.input.consume?_eq_some_iff.mp hi
  have hraw : rawText l.toList = rawText p.log.toList ++ c.raw := congrArg Chunk.raw hl
  refine ⟨?_, hcomplete⟩
  rw [total, total, hraw, hrest, String.append_assoc]

theorem total_of_transcript (hl : transcript l.toList = transcript p.log.toList) :
    (⟨l, p.input⟩ : Parse).total = p.total := by
  have hraw : rawText l.toList = rawText p.log.toList := congrArg Chunk.raw hl
  rw [total, total, hraw]

theorem total_silent {e : Event} (he : e.isChunk = false)
    (hl : transcript l.toList = transcript p.log.toList ++ e.text) :
    (⟨l, p.input⟩ : Parse).total = p.total := by
  apply total_of_transcript
  rw [hl, Event.text_eq_blank he, Chunk.append_blank]

theorem total_rollback {m : Marker} {i : Input} (h : p.log.rollback m p.input = .ok (l, i)) :
    (⟨l, i⟩ : Parse).total = p.total ∧ i.complete = p.input.complete := by
  obtain ⟨hbase, rfl⟩ := Log.rollback_eq_ok_iff.mp h
  refine ⟨?_, rfl⟩
  have hmarker : rawText [Event.marker m] = "" := rfl
  rw [total, total, Log.toList_of_before? hbase, List.append_cons, rawText_append, rawText_append,
    hmarker, String.append_empty, String.append_assoc]
  rfl

theorem total_commit {q : Parse} {m : Marker} (h : p.act? (.commit m) = some q) :
    q.total = p.total ∧ q.input.complete = p.input.complete := by
  obtain ⟨l, hl, rfl⟩ := Option.map_eq_some_iff.mp h
  exact ⟨total_of_transcript (Log.transcript_commit (toOption_eq_some_iff.mp hl)), rfl⟩

end Steps

/-- No action loses, repeats or moves any text. -/
theorem total_act? {p q : Parse} {a : Action} (h : p.act? a = some q) :
    q.total = p.total ∧ q.input.complete = p.input.complete := by
  cases a with
  | eat c =>
    obtain ⟨i, hi, rfl⟩ := Option.map_eq_some_iff.mp h
    exact total_eat hi (transcript_append_event p.log (.chunk c))
  | eatAbsorbing c =>
    obtain ⟨i, hi, rfl⟩ := Option.map_eq_some_iff.mp h
    exact total_eat hi (Log.transcript_absorb p.log (.chunk c))
  | append e he =>
    obtain rfl := Option.some.inj h
    exact ⟨total_silent he (transcript_append_event p.log e), rfl⟩
  | absorb e he =>
    obtain rfl := Option.some.inj h
    exact ⟨total_silent he (Log.transcript_absorb p.log e), rfl⟩
  | mark m =>
    obtain rfl := Option.some.inj h
    exact ⟨total_silent rfl (transcript_append_event p.log (.marker m)), rfl⟩
  | rollback m =>
    obtain ⟨⟨l, i⟩, hr, rfl⟩ := Option.map_eq_some_iff.mp h
    exact total_rollback (toOption_eq_some_iff.mp hr)
  | commit m => exact total_commit h
  | commitRound => exact total_commit (act?_commitRound p ▸ h)
  | compact =>
    obtain ⟨l, hl, rfl⟩ := Option.map_eq_some_iff.mp h
    exact ⟨total_of_transcript (Log.transcript_compact (toOption_eq_some_iff.mp hl)), rfl⟩

theorem run_cons (p : Parse) (a : Action) (as : List Action) :
    p.run (a :: as) = ((p.act? a).getD p).run as := rfl

/-- What every action that succeeds preserves, a run preserves. -/
theorem run_induction {P : Parse → Prop} (hact : ∀ {q r a}, P q → q.act? a = some r → P r)
    {p : Parse} (hp : P p) (as : List Action) : P (p.run as) := by
  induction as generalizing p with
  | nil => exact hp
  | cons a as ih =>
    rw [run_cons]
    cases hq : p.act? a with
    | none => exact ih hp
    | some q => exact ih (hact hp hq)

theorem conserved_act? {total : String} {complete : Bool} {p q : Parse} {a : Action}
    (h : p.total = total ∧ p.input.complete = complete) (hact : p.act? a = some q) :
    q.total = total ∧ q.input.complete = complete := by
  obtain ⟨htotal, hcomplete⟩ := total_act? hact
  exact ⟨htotal.trans h.1, hcomplete.trans h.2⟩

/-- Whatever a parse does, the text on its log and the text to come together stay the same. -/
theorem run_conserves_input (p : Parse) (as : List Action) :
    (p.run as).total = p.total ∧ (p.run as).input.complete = p.input.complete :=
  run_induction (P := fun q => q.total = p.total ∧ q.input.complete = p.input.complete)
    conserved_act? ⟨rfl, rfl⟩ as

end Parse

end ParseLog
