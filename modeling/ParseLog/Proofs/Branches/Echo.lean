import ParseLog.Proofs.Branches.Alignment
import ParseLog.Proofs.Branches.Joint
/-!
# Echoes

The text of a joint log is the text of its first branch, and besides it every chunk that was taken
from another branch while the first had none in front. Such an echo repeats text if it is not blank.
-/

namespace ParseLog
set_option autoImplicit false

namespace Pending

/-- Whether the event is a chunk and the first branch has no chunk in front. -/
def isEcho (p : Pending) (e : Event) : Bool :=
  e.isChunk && !(p.head?.bind List.head?).any Event.isChunk

/-- The chunks that a merge takes while the first branch has none in front. -/
def echoes (p : Pending) : List Event :=
  match _h : p.step with
  | .ok (some (e, q)) => if p.isEcho e then e :: q.echoes else q.echoes
  | _ => []
termination_by p.total
decreasing_by all_goals exact total_lt_of_step _h

theorem echoes_of_step {p q : Pending} {e : Event} (h : p.step = .ok (some (e, q))) :
    p.echoes = (if p.isEcho e then [e] else []) ++ q.echoes := by
  rw [echoes]
  split
  · rename_i e' q' h'
    cases h.symm.trans h'
    split <;> rfl
  · rename_i hno
    exact absurd h (hno e q)

theorem echoes_of_stop {p : Pending} (h : p.step = .ok none) : p.echoes = [] := by
  rw [echoes]
  split
  · rename_i e q h'
    cases h.symm.trans h'
  · rfl

theorem step_cons_chunk (c : Chunk) (later : List Event) (rest : Pending) :
    step ((.chunk c :: later) :: rest) =
      .ok (some (.chunk c, advance Event.isChunk ((.chunk c :: later) :: rest))) := rfl

theorem chunks_dropFront {taken : Event → Bool} {es : List Event}
    (h : ∀ e ∈ es.head?, e.isChunk = false) :
    (dropFront taken es).filter Event.isChunk = es.filter Event.isChunk := by
  cases es with
  | nil => rfl
  | cons e later =>
    by_cases he : taken e = true
    · simp [dropFront, he, h e rfl]
    · simp [dropFront, he]

theorem isEcho_cons_chunk (c : Chunk) (later : List Event) (rest : Pending) (e : Event) :
    isEcho ((.chunk c :: later) :: rest) e = false := by
  simp [isEcho, Event.isChunk]

theorem isEcho_of_front {first : List Event} (h : ∀ x ∈ first.head?, x.isChunk = false)
    (rest : Pending) (e : Event) : isEcho (first :: rest) e = e.isChunk := by
  cases first with
  | nil => simp [isEcho]
  | cons x later => simp [isEcho, h x rfl]

/-- A turn takes off the first branch the chunk that it adds to the joint log, unless it is an
echo. -/
theorem chunks_turn {first : List Event} {rest q : Pending} {e : Event}
    (h : step (first :: rest) = .ok (some (e, q))) :
    ∃ later rest', q = later :: rest' ∧ first.filter Event.isChunk =
      (if isEcho (first :: rest) e then [] else [e].filter Event.isChunk) ++
        later.filter Event.isChunk := by
  by_cases hfirst : ∀ x ∈ first.head?, x.isChunk = false
  · obtain ⟨taken, rfl⟩ := (turn_of_step h).eq_advance
    refine ⟨_, _, rfl, ?_⟩
    rw [isEcho_of_front hfirst, chunks_dropFront hfirst]
    split
    · rfl
    · rename_i he
      rw [List.filter_cons_of_neg he]
      rfl
  · cases first with
    | nil => exact absurd (by simp) hfirst
    | cons x later =>
      cases x with
      | chunk c =>
        rw [step_cons_chunk] at h
        cases h
        refine ⟨later, _, rfl, ?_⟩
        rw [isEcho_cons_chunk]
        rfl
      | _ => exact absurd (by simp [Event.isChunk]) hfirst

theorem transcript_turn {first : List Event} {rest q : Pending} {e : Event}
    (h : step (first :: rest) = .ok (some (e, q))) :
    ∃ later rest', q = later :: rest' ∧ transcript first =
      (if isEcho (first :: rest) e then .blank else e.text) ++ transcript later := by
  obtain ⟨later, rest', hq, hchunks⟩ := chunks_turn h
  refine ⟨later, rest', hq, ?_⟩
  rw [← transcript_filter_isChunk first, hchunks, transcript_append,
    transcript_filter_isChunk later]
  split
  · rfl
  · rw [transcript_filter_isChunk, transcript_cons, transcript_nil, Chunk.append_blank]

/-- The text that a merge takes is as long as that of the first branch and of the echoes
together. -/
theorem size_transcript_run {p : Pending} {fs : List Event} (h : p.Run fs) :
    ∀ first rest, p = first :: rest →
      (transcript fs).size = (transcript first).size + (transcript p.echoes).size := by
  -- A turn adds its text on the right to one of the two: to the first branch, or to the echoes.
  induction h with
  | done hstop =>
    rintro first rest rfl
    have hfirst := fronts_of_step_none hstop _ (mem_fronts List.mem_cons_self)
    rw [echoes_of_stop hstop, List.head?_eq_none_iff.mp hfirst]
    rfl
  | @turn p q e fs hstep _ ih =>
    rintro first rest rfl
    obtain ⟨later, rest', rfl, hfirst⟩ := transcript_turn hstep
    have hlater := ih later rest' rfl
    rw [echoes_of_step hstep, transcript_cons, transcript_append, hfirst]
    simp only [Chunk.size_append, hlater]
    split
    · simp only [transcript_cons, transcript_nil, Chunk.append_blank, Chunk.size_blank]
      omega
    · simp only [transcript_nil, Chunk.size_blank]
      omega

theorem transcript_run {p : Pending} {fs : List Event} (h : p.Run fs)
    (hechoes : transcript p.echoes = .blank) :
    ∀ first rest, p = first :: rest → transcript fs = transcript first := by
  induction h with
  | done hstop =>
    rintro first rest rfl
    have hfirst := fronts_of_step_none hstop _ (mem_fronts List.mem_cons_self)
    rw [List.head?_eq_none_iff.mp hfirst]
  | @turn p q e fs hstep _ ih =>
    rintro first rest rfl
    obtain ⟨later, rest', rfl, hfirst⟩ := transcript_turn hstep
    rw [echoes_of_step hstep, transcript_append, Chunk.append_eq_blank_iff] at hechoes
    rw [transcript_cons, ih hechoes.2 later rest' rfl, hfirst]
    split
    · rename_i hecho
      rw [if_pos hecho, transcript_cons, transcript_nil, Chunk.append_blank] at hechoes
      rw [hechoes.1]
    · rfl

theorem transcript_run_iff {first : List Event} {rest : Pending} {fs : List Event}
    (h : Run (first :: rest) fs) :
    transcript fs = transcript first ↔ transcript (echoes (first :: rest)) = .blank := by
  constructor
  · intro heq
    have hsize := size_transcript_run h first rest rfl
    rw [heq] at hsize
    exact Chunk.size_eq_zero_iff.mp (by omega)
  · exact fun hechoes => transcript_run h hechoes first rest rfl

theorem sublist_run {p : Pending} {fs : List Event} (h : p.Run fs) :
    ∀ first rest, p = first :: rest →
      (first.filter Event.isChunk).Sublist (fs.filter Event.isChunk) := by
  induction h with
  | done hstop =>
    rintro first rest rfl
    have hfirst := fronts_of_step_none hstop _ (mem_fronts List.mem_cons_self)
    rw [List.head?_eq_none_iff.mp hfirst]
  | @turn p q e fs hstep _ ih =>
    rintro first rest rfl
    obtain ⟨later, rest', rfl, hfirst⟩ := chunks_turn hstep
    have htaken : (if isEcho (first :: rest) e then [] else [e].filter Event.isChunk).Sublist
        ([e].filter Event.isChunk) := by
      split
      · exact List.nil_sublist _
      · exact List.Sublist.refl _
    have hsplit : (e :: fs).filter Event.isChunk =
        [e].filter Event.isChunk ++ fs.filter Event.isChunk := by
      rw [← List.filter_append, List.singleton_append]
    rw [hfirst, hsplit]
    exact htaken.append (ih later rest' rfl)

theorem isEcho_of_aligned {p q : Pending} {o : List Event} {e : Event} (h : p.Aligned o)
    (hturn : p.Turn e q) : p.isEcho e = false := by
  cases p with
  | nil =>
    cases hturn with
    | chunk front => cases front
    | meet _ bound => exact absurd bound.2.choose_spec.2 (by simp [fronts])
    | share _ _ _ nonempty => exact absurd rfl nonempty
  | cons first rest =>
    by_cases he : e.isChunk = true
    · have hfront : some e ∈ fronts (first :: rest) := by
        cases hturn with
        | chunk front => exact front
        | meet => cases he
        | share _ rigid => exact absurd he (by simp_all [Event.isRigid])
      obtain ⟨x, later, rfl, hx⟩ := h.front hfront List.mem_cons_self
      cases e <;> simp only [Event.isChunk, Bool.false_eq_true] at he
      simp [isEcho, Event.isChunk_of_outline hx]
    · simp [isEcho, he]

theorem echoes_eq_nil {p : Pending} {fs : List Event} (h : p.Run fs) :
    ∀ o, p.Aligned o → p.echoes = [] := by
  induction h with
  | done hstop => exact fun _ _ => echoes_of_stop hstop
  | @turn p q e fs hstep _ ih =>
    intro o ho
    have hturn := turn_of_step hstep
    rw [echoes_of_step hstep, ih _ (aligned_turn ho hturn), isEcho_of_aligned ho hturn]
    rfl

end Pending

/-- The chunks that a join takes from another branch while the first has none in front. -/
def jointEchoes (logs : List Log) : List Event :=
  match logs.mapM Log.compact with
  | .ok cs => Pending.echoes (cs.map Log.toList)
  | .error _ => []

/-- A join of branches with one text loses none of it, and it repeats none exactly if all its echoes
are blank; aligned branches have no echoes. -/
theorem jointLog_transcript_iff {first : Log} {others : List Log} {t : Chunk} {c : Log}
    (htext : ∀ l ∈ first :: others, transcript l.toList = t)
    (hjoin : jointLog (first :: others) = .ok c) :
    (∃ chunks : List Event, chunks.Sublist c.toList ∧ transcript chunks = t) ∧
    (transcript c.toList = t ↔ transcript (jointEchoes (first :: others)) = .blank) ∧
    (LogsAligned (first :: others) → jointEchoes (first :: others) = []) := by
  obtain ⟨-, cs, fs, hcs, hrun, rfl⟩ := jointLog_eq_ok_iff.mp hjoin
  have hechoes : jointEchoes (first :: others) = Pending.echoes (cs.map Log.toList) := by
    simp only [jointEchoes, hcs]
  rw [hechoes, Log.toList_ofList]
  have hcs' := mapM_compact_eq_ok_iff.mp hcs
  cases cs with
  | nil => cases hcs'
  | cons c' cs =>
    obtain ⟨hfirst, hothers⟩ := List.cons.inj hcs'
    have ht : transcript c'.toList = t := by
      rw [Log.transcript_compact hfirst, htext first List.mem_cons_self]
    refine ⟨⟨c'.toList.filter Event.isChunk, ?_, ?_⟩, ?_, ?_⟩
    · exact (Pending.sublist_run hrun _ _ rfl).trans List.filter_sublist
    · rw [transcript_filter_isChunk, ht]
    · rw [← ht]
      exact Pending.transcript_run_iff hrun
    · intro haligned
      obtain ⟨o, ho⟩ := haligned.pending hcs
      exact Pending.echoes_eq_nil hrun o ho

/-! ### One text cut into chunks at different places -/

namespace Recut

/-- The set of a multi-variable with two symbols. -/
def either : Value :=
  ⟨Unaligned.url.var,
    .symbols (SortedSet.ofList [⟨Unaligned.context, 2, "Style"⟩, ⟨Unaligned.context, 3, "Url"⟩]),
    fun _ => rfl⟩

def pieces : Log :=
  Log.ofList [.bracket Unaligned.tag, .value either, .chunk ⟨"<", "&lt;"⟩, .chunk (.plain "b")]

def whole : Log :=
  Log.ofList [.bracket Unaligned.tag, .value Unaligned.url, .chunk ⟨"<b", "&lt;b"⟩]

theorem logsAligned : LogsAligned [pieces, whole] := by
  have hpieces : pieces.compact =
      .ok (Log.ofList [.bracket Unaligned.tag, .value either, .chunk ⟨"<b", "&lt;b"⟩]) := by
    decide +kernel
  have hwhole : whole.compact = .ok whole := by decide +kernel
  refine ⟨[.bracket Unaligned.tag, .value either.emptied, .chunk .blank], ?_⟩
  intro l hl c hc
  rcases List.mem_pair.mp hl with rfl | rfl
  · obtain rfl := Except.ok.inj (hpieces.symm.trans hc)
    rfl
  · obtain rfl := Except.ok.inj (hwhole.symm.trans hc)
    rfl

end Recut

open Recut in
theorem jointLog_transcript_recut :
    (∀ l ∈ [pieces, whole], transcript l.toList = ⟨"<b", "&lt;b"⟩) ∧
      LogsAligned [pieces, whole] ∧ jointLog [pieces, whole] = .ok whole ∧
      jointEchoes [pieces, whole] = [] ∧ transcript whole.toList = ⟨"<b", "&lt;b"⟩ := by
  have htext : ∀ l ∈ [pieces, whole], transcript l.toList = ⟨"<b", "&lt;b"⟩ := by
    decide +kernel
  have hjoin : jointLog [pieces, whole] = .ok whole := by decide +kernel
  obtain ⟨-, hrepeats, haligned⟩ := jointLog_transcript_iff htext hjoin
  have hechoes : jointEchoes [pieces, whole] = [] := haligned logsAligned
  refine ⟨htext, logsAligned, hjoin, hechoes, hrepeats.mpr ?_⟩
  rw [hechoes]
  rfl

/-- The text of two branches stands twice in their joint log if one of them binds a variable before
the text. -/
theorem exists_jointLog_repeating :
    ∃ (first : Log) (others : List Log) (t : Chunk) (c : Log),
      (∀ l ∈ first :: others, transcript l.toList = t) ∧ jointLog (first :: others) = .ok c ∧
        transcript c.toList ≠ t := by
  refine ⟨Unaligned.plain, [Unaligned.bound], .plain "a", Log.ofList
    [.bracket Unaligned.tag, .chunk (.plain "a"), .value Unaligned.url.emptied,
      .chunk (.plain "a")], ?_⟩
  decide +kernel

end ParseLog
