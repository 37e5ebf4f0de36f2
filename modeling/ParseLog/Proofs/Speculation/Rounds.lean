import ParseLog.Proofs.Log.Committing
import ParseLog.Proofs.Speculation.Undoing
/-!
# Rounds of a loop

A loop goes on as long as its rounds consume input, and a round tells so by the chunks that it leaves
on the log. What it leaves is what it consumed, since what it gave up has gone back to the input. So a
round reports true exactly if the rest of the input got shorter, and a loop ends.
-/

namespace ParseLog
set_option autoImplicit false

/-- The number of bytes still to come. -/
def Input.bytesLeft (i : Input) : Nat := i.rest.utf8ByteSize

theorem any_raw_ne_iff (es : List Event) :
    es.any (fun e => decide (e.raw ≠ "")) = true ↔ 0 < (rawText es).utf8ByteSize := by
  induction es with
  | nil => simp [rawText]
  | cons e es ih =>
    have htext : rawText (e :: es) = e.raw ++ rawText es := congrArg Chunk.raw (transcript_cons e es)
    have hraw : e.raw ≠ "" ↔ 0 < e.raw.utf8ByteSize := by
      rw [Nat.pos_iff_ne_zero, ne_eq, ne_eq, String.utf8ByteSize_eq_zero_iff]
    rw [List.any_cons, Bool.or_eq_true, ih, decide_eq_true_iff, hraw, htext,
      String.utf8ByteSize_append]
    omega

namespace Log
variable {base : Log} {after : List Event}

theorem foldl_seen (f : Event → Bool) (seen : Bool) (es : List Event) :
    es.foldl (fun seen e => seen || f e) seen = (seen || es.any f) := by
  induction es generalizing seen with
  | nil => simp
  | cons e es ih => rw [List.foldl_cons, ih, List.any_cons, Bool.or_assoc]

theorem commitRound_mark (hafter : .marker .loop ∉ after) (base : Log) :
    ((base.mark .loop).appendAll after).commitRound =
      .ok (base.graft after, after.any fun e => decide (e.raw ≠ "")) := by
  have hloop : Marker.loop ≠ .lookahead := nofun
  rw [commitRound, commitFold_mark hafter hloop]
  simp only [foldl_seen, List.any_reverse, Bool.false_or]
  rfl

end Log

namespace Parse

/-- The actions of a round after its marker: they resolve only speculation begun in their own course
and leave no loop marker of theirs. -/
structure IsBody (p : Parse) (as : List Action) : Prop where
  stays : (p.mark .loop).StaysBeyond (p.mark .loop).log as
  resolved : .marker .loop ∉ ((p.mark .loop).run as).log.beyond (p.mark .loop).log

/-- A round of a loop: a marker is pushed, the body runs, and the commit reports whether the round
consumed any input. -/
def Round (p : Parse) (consumed : Bool) (q : Parse) : Prop :=
  ∃ as, p.IsBody as ∧ ((p.mark .loop).run as).log.commitRound = .ok (q.log, consumed) ∧
    q.input = ((p.mark .loop).run as).input

/-- Rounds one after the other, with what they report. -/
inductive Rounds : Parse → List Bool → Parse → Prop where
  | done (p : Parse) : Rounds p [] p
  | next {p q r : Parse} {consumed : Bool} {reports : List Bool} :
      p.Round consumed q → Rounds q reports r → Rounds p (consumed :: reports) r

variable {p q : Parse} {as : List Action} {consumed : Bool}

theorem commitRound_body (h : p.IsBody as) :
    ∃ l consumed, ((p.mark .loop).run as).log.commitRound = .ok (l, consumed) ∧
      (consumed = true ↔ ((p.mark .loop).run as).input.bytesLeft < p.input.bytesLeft) ∧
      ((p.mark .loop).run as).input.bytesLeft ≤ p.input.bytesLeft := by
  obtain ⟨inner, habove, htotal, -⟩ := exists_onto_mark h.stays
  have hafter : .marker .loop ∉ inner.log.toList := by
    have hresolved := h.resolved
    rw [habove, onto, Log.beyond_onto] at hresolved
    exact hresolved
  have hlog : (inner.onto (p.mark .loop).log).log =
      (p.log.mark .loop).appendAll inner.log.toList :=
    Log.onto_eq_appendAll inner.log (p.log.mark .loop)
  -- What the body left on the log and what it left of the input make up the input it began with.
  have hbytes : p.input.bytesLeft =
      (rawText inner.log.toList).utf8ByteSize + inner.input.bytesLeft := by
    rw [Input.bytesLeft, ← htotal, total, String.utf8ByteSize_append]
    rfl
  rw [habove, hlog, Log.commitRound_mark hafter]
  refine ⟨_, _, rfl, ?_, ?_⟩
  · rw [any_raw_ne_iff, hbytes]
    show _ ↔ inner.input.bytesLeft < _
    omega
  · show inner.input.bytesLeft ≤ _
    omega

theorem Round.bytesLeft (h : p.Round consumed q) :
    (consumed = true ↔ q.input.bytesLeft < p.input.bytesLeft) ∧
      q.input.bytesLeft ≤ p.input.bytesLeft := by
  obtain ⟨as, hbody, hcommit, hinput⟩ := h
  obtain ⟨l, reported, hreported, hiff, hle⟩ := commitRound_body hbody
  obtain ⟨-, rfl⟩ := Prod.mk.inj (Except.ok.inj (hcommit.symm.trans hreported))
  rw [hinput]
  exact ⟨hiff, hle⟩

theorem Rounds.count_add_bytesLeft_le {reports : List Bool} (h : p.Rounds reports q) :
    reports.count true + q.input.bytesLeft ≤ p.input.bytesLeft := by
  induction h with
  | done p => simp
  | @next p q r consumed reports hround _ ih =>
    obtain ⟨hiff, hle⟩ := hround.bytesLeft
    cases consumed with
    | true =>
      have hlt := hiff.mp rfl
      rw [List.count_cons_self]
      omega
    | false =>
      rw [List.count_cons_of_ne (by decide)]
      omega

theorem add_bytesLeft_le {ps : Nat → Parse} {reports : Nat → Bool}
    (h : ∀ n, (ps n).Round (reports n) (ps (n + 1))) {n : Nat} (htrue : ∀ i < n, reports i = true) :
    n + (ps n).input.bytesLeft ≤ (ps 0).input.bytesLeft := by
  induction n with
  | zero => simp
  | succ n ih =>
    have hearlier := ih fun i hi => htrue i (Nat.lt_succ_of_lt hi)
    have hlt := (h n).bytesLeft.1.mp (htrue n (Nat.lt_succ_self n))
    omega

/-- A round can always be committed and reports true exactly if the rest of the input got shorter. A
loop thus has no more rounds that report true than it has bytes to come, and one of its rounds reports
false by then. -/
theorem commitRound_reports_consumption :
    (∀ (p : Parse) (as : List Action), p.IsBody as →
      ∃ l consumed, ((p.mark .loop).run as).log.commitRound = .ok (l, consumed) ∧
        (consumed = true ↔ ((p.mark .loop).run as).input.bytesLeft < p.input.bytesLeft)) ∧
    (∀ (p q : Parse) (reports : List Bool), p.Rounds reports q →
      reports.count true ≤ p.input.bytesLeft) ∧
    ∀ (ps : Nat → Parse) (reports : Nat → Bool),
      (∀ n, (ps n).Round (reports n) (ps (n + 1))) →
      ∃ n ≤ (ps 0).input.bytesLeft, reports n = false := by
  refine ⟨fun p as hbody => ?_, fun p q reports hrounds => ?_, fun ps reports hrounds => ?_⟩
  · obtain ⟨l, consumed, hcommit, hiff, -⟩ := commitRound_body hbody
    exact ⟨l, consumed, hcommit, hiff⟩
  · have hcount := hrounds.count_add_bytesLeft_le
    omega
  · by_contra hnone
    have htrue : ∀ i < (ps 0).input.bytesLeft + 1, reports i = true := by
      intro i hi
      by_contra hfalse
      exact hnone ⟨i, Nat.le_of_lt_succ hi, Bool.eq_false_iff.mpr hfalse⟩
    have hbound := add_bytesLeft_le hrounds htrue
    omega

end Parse

/-! ### A round that gives text back, and one that consumes nothing -/

namespace Iterated

def start : Parse := ⟨∅, .ofString "&lt;b"⟩

def body : List Action :=
  [.eat ⟨"<", "&lt;"⟩, .mark .branch, .eat (.plain "b"), .rollback .branch]

def later : Parse := ⟨Log.ofList [.chunk ⟨"<", "&lt;"⟩], ⟨"", "b", true⟩⟩

def parses : Nat → Parse
  | 0 => start
  | _ + 1 => later

def reports : Nat → Bool
  | 0 => true
  | _ + 1 => false

theorem body_isBody : start.IsBody body := ⟨by decide, by decide⟩

theorem start_round : start.Round true later :=
  ⟨body, body_isBody, rfl, rfl⟩

theorem later_round : later.Round false later :=
  ⟨[], ⟨trivial, by decide⟩, rfl, rfl⟩

theorem rounds (n : Nat) : (parses n).Round (reports n) (parses (n + 1)) := by
  cases n with
  | zero => exact start_round
  | succ n => exact later_round

end Iterated

theorem Parse.commitRound_reports_consumption_once :
    Iterated.start.IsBody Iterated.body ∧
      (∃ l, ((Iterated.start.mark .loop).run Iterated.body).log.commitRound = .ok (l, true)) ∧
      Iterated.start.Rounds [true, false] Iterated.later ∧
      [true, false].count true ≤ Iterated.start.input.bytesLeft ∧
      (∀ n, (Iterated.parses n).Round (Iterated.reports n) (Iterated.parses (n + 1))) ∧
      ∃ n ≤ Iterated.start.input.bytesLeft, Iterated.reports n = false := by
  obtain ⟨hguard, hcount, hends⟩ := Parse.commitRound_reports_consumption
  have hshorter : ((Iterated.start.mark .loop).run Iterated.body).input.bytesLeft <
      Iterated.start.input.bytesLeft := by decide
  obtain ⟨l, consumed, hcommit, hiff⟩ := hguard _ _ Iterated.body_isBody
  obtain rfl := hiff.mpr hshorter
  have hrounds : Iterated.start.Rounds [true, false] Iterated.later :=
    .next Iterated.start_round (.next Iterated.later_round (.done Iterated.later))
  exact ⟨Iterated.body_isBody, ⟨l, hcommit⟩, hrounds, hcount _ _ _ hrounds, Iterated.rounds,
    hends Iterated.parses Iterated.reports Iterated.rounds⟩

end ParseLog
