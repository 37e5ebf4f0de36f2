import ParseLog.Log.Compaction
/-!
# Transcripts

The transcript of a list of events is the text of all its chunks, decoded and raw, as one chunk.
Neither absorbing nor compaction changes it.
-/

namespace ParseLog
set_option autoImplicit false

def Chunk.blank : Chunk := ⟨"", ""⟩

namespace Chunk

theorem append_assoc (a b c : Chunk) : a ++ b ++ c = a ++ (b ++ c) := by
  show (⟨_, _⟩ : Chunk) = ⟨_, _⟩
  rw [Chunk.mk.injEq]
  exact ⟨String.append_assoc, String.append_assoc⟩

@[simp] theorem blank_append (a : Chunk) : blank ++ a = a := by
  show (⟨_, _⟩ : Chunk) = a
  simp [blank]

@[simp] theorem append_blank (a : Chunk) : a ++ blank = a := by
  show (⟨_, _⟩ : Chunk) = a
  simp [blank]

theorem append_eq_blank_iff {a b : Chunk} : a ++ b = blank ↔ a = blank ∧ b = blank := by
  obtain ⟨d, r⟩ := a
  obtain ⟨d', r'⟩ := b
  show (⟨d ++ d', r ++ r'⟩ : Chunk) = blank ↔ _
  simp only [blank, Chunk.mk.injEq, String.append_eq_empty_iff]
  exact and_and_and_comm

/-- The number of characters, decoded and raw. -/
def size (a : Chunk) : Nat := a.decoded.length + a.raw.length

@[simp] theorem size_append (a b : Chunk) : (a ++ b).size = a.size + b.size := by
  show (a.decoded ++ b.decoded).length + (a.raw ++ b.raw).length = _
  simp only [String.length_append, size]
  omega

@[simp] theorem size_blank : blank.size = 0 := rfl

theorem size_eq_zero_iff {a : Chunk} : a.size = 0 ↔ a = blank := by
  obtain ⟨d, r⟩ := a
  simp [size, blank]

end Chunk

/-- The text of an event, blank for all but chunks. -/
def Event.text (e : Event) : Chunk := ⟨e.decoded, e.raw⟩

theorem Event.text_eq_blank {e : Event} (h : e.isChunk = false) : e.text = .blank := by
  cases e <;> first | rfl | cases h

/-- The text of all chunks, in order. -/
def transcript (es : List Event) : Chunk := ⟨decodedText es, rawText es⟩

@[simp] theorem transcript_nil : transcript [] = .blank := rfl

@[simp] theorem transcript_append (es fs : List Event) :
    transcript (es ++ fs) = transcript es ++ transcript fs := by
  simp only [transcript, decodedText_append, rawText_append]
  rfl

@[simp] theorem transcript_cons (e : Event) (es : List Event) :
    transcript (e :: es) = e.text ++ transcript es := by
  have h : transcript [e] = e.text := by simp [transcript, Event.text, decodedText, rawText]
  rw [← h, ← transcript_append, List.singleton_append]

theorem transcript_eq_blank {es : List Event} (h : ∀ e ∈ es, e.isChunk = false) :
    transcript es = .blank := by
  induction es with
  | nil => rfl
  | cons e es ih =>
    rw [transcript_cons, Event.text_eq_blank (h e List.mem_cons_self),
      ih fun x hx => h x (List.mem_cons_of_mem e hx), Chunk.blank_append]

theorem transcript_filter_isChunk (es : List Event) :
    transcript (es.filter Event.isChunk) = transcript es := by
  induction es with
  | nil => rfl
  | cons e es ih =>
    by_cases he : e.isChunk = true
    · rw [List.filter_cons_of_pos he, transcript_cons, ih, transcript_cons]
    · rw [List.filter_cons_of_neg he, ih, transcript_cons,
        Event.text_eq_blank (by simpa using he), Chunk.blank_append]

namespace Log

theorem text_coalesce? {a b m : Event} (h : a.coalesce? b = some m) :
    m.text = a.text ++ b.text := by
  obtain ⟨c, d, rfl, rfl, rfl⟩ | ⟨x, y, rfl, rfl, -, rfl⟩ := Event.coalesce?_cases h
  · rfl
  · rfl

theorem transcript_absorb (l : Log) (e : Event) :
    transcript (l.absorb e).toList = transcript l.toList ++ e.text := by
  obtain ⟨-, habsorb⟩ | ⟨older, last, merged, rfl, hm, habsorb⟩ := absorb_cases l e
  · simp [habsorb]
  · simp [habsorb, text_coalesce? hm, Chunk.append_assoc]

theorem transcript_absorbAll (l : Log) (es : List Event) :
    transcript (l.absorbAll es).toList = transcript l.toList ++ transcript es := by
  induction es generalizing l with
  | nil => simp [absorbAll]
  | cons e es ih =>
    have hstep := ih (l.absorb e)
    simp only [absorbAll] at hstep
    simp only [absorbAll, List.foldl_cons, hstep, transcript_absorb, transcript_cons,
      Chunk.append_assoc]

end Log

namespace Forest

theorem transcript_values (values : List Value) :
    transcript (values.map Event.value) = .blank := by
  apply transcript_eq_blank
  intro e he
  obtain ⟨a, -, rfl⟩ := List.mem_map.mp he
  rfl

theorem transcript_keptEvents (outer : List Frame) (f : Forest) :
    transcript (keptEvents outer f) = transcript f.events := by
  induction f generalizing outer with
  | nil => rfl
  | leaf e later ih =>
    rw [keptEvents_leaf, events, transcript_cons]
    split
    · rename_i he
      have hchunk : e.isChunk = false := by cases e <;> simp_all [Event.isValue, Event.isChunk]
      rw [ih, Event.text_eq_blank hchunk, Chunk.blank_append]
    · rw [transcript_cons, ih]
  | region left body right later ihb ihl =>
    have hleft : transcript (if right.isNone then [Event.bracket left] else []) = .blank := by
      apply transcript_eq_blank
      intro e he
      split at he <;> simp_all [Event.isChunk]
    have hright : transcript (right.toList.map Event.bracket) = .blank := by
      apply transcript_eq_blank
      intro e he
      obtain ⟨b, -, rfl⟩ := List.mem_map.mp he
      rfl
    rw [keptEvents_region, events]
    simp only [transcript_append, transcript_cons, hleft, hright, transcript_values, ihb, ihl,
      Event.text_eq_blank (e := .bracket left) rfl, Chunk.blank_append]

end Forest

theorem Log.transcript_compact {l c : Log} (h : l.compact = .ok c) :
    transcript c.toList = transcript l.toList := by
  obtain ⟨f, hf, rfl⟩ := compact_eq_ok_iff.mp h
  rw [transcript_absorbAll, ← Forest.events_ofEvents hf]
  simp only [Forest.compactEvents, transcript_append, Forest.transcript_values,
    Forest.transcript_keptEvents, Chunk.blank_append]
  exact Chunk.blank_append _

end ParseLog
