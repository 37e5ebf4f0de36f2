import ParseLog.DottedName
/-!
# Dotted names are lists of segments

A text is a dotted name exactly if it is a list of segments with full stops between them, and a text is
such a list in one way only. All that this uses of the characters of words is that a full stop is none
of them. So a name that is qualified by another needs no check.
-/

namespace ParseLog
set_option autoImplicit false

section Segments
variable {w : WordChars}

theorem WordChars.isSegment_iff {segment : List Char} :
    w.isSegment segment = true ↔ ∃ c rest, segment = c :: rest ∧ w.startsSegment c = true ∧
      ∀ d ∈ rest, w.continuesSegment d = true := by
  cases segment with
  | nil => simp [isSegment]
  | cons c rest => simp [isSegment, and_assoc]

theorem WordChars.IsDotFree.notMem_segment (hw : w.IsDotFree) {segment : List Char}
    (h : w.isSegment segment = true) : '.' ∉ segment := by
  obtain ⟨c, rest, rfl, hstart, hrest⟩ := isSegment_iff.mp h
  have hstarts : w.startsSegment '.' = false := by simp [startsSegment, hw.starts_dot]
  have hcontinues : w.continuesSegment '.' = false := by simp [continuesSegment, hw.continues_dot]
  intro hmem
  rcases List.mem_cons.mp hmem with rfl | hmem
  · cases hstarts.symm.trans hstart
  · cases hcontinues.symm.trans (hrest _ hmem)

/-- Whether the text is these segments, with a full stop between neighbours. -/
structure IsSegmented (w : WordChars) (text : String) (parts : List (List Char)) : Prop where
  nonempty : parts ≠ []
  joined : text.toList = ['.'].intercalate parts
  segment : ∀ part ∈ parts, ∃ c rest, part = c :: rest ∧ w.startsSegment c = true ∧
    ∀ d ∈ rest, w.continuesSegment d = true

namespace IsSegmented
variable {text : String} {parts : List (List Char)}

theorem of_isDotted (h : w.isDotted text = true) : IsSegmented w text (segments text) where
  nonempty := List.splitOn_ne_nil _ _
  joined := (List.intercalate_splitOn '.').symm
  segment part hpart := WordChars.isSegment_iff.mp (List.all_eq_true.mp h part hpart)

variable (hw : w.IsDotFree) (h : IsSegmented w text parts)
include hw h

theorem segments_eq : segments text = parts := by
  rw [segments, h.joined]
  refine List.splitOn_intercalate '.' (fun part hpart => ?_) h.nonempty
  exact hw.notMem_segment (WordChars.isSegment_iff.mpr (h.segment part hpart))

theorem isDotted : w.isDotted text = true := by
  rw [WordChars.isDotted, segments_eq hw h, List.all_eq_true]
  exact fun part hpart => WordChars.isSegment_iff.mpr (h.segment part hpart)

end IsSegmented

end Segments

/-- A way to make a name from texts. -/
inductive NameTerm where
  | written (text : String)
  | qualified (name outer : NameTerm)

namespace NameTerm

/-- The texts that the name is made from. -/
def texts : NameTerm → List String
  | written text => [text]
  | qualified name outer => name.texts ++ outer.texts

section Making
variable (w : WordChars)

/-- The text of the name. Written texts are checked, and what is put together from them is not. -/
def text? : NameTerm → Except NameError String
  | written text => if w.isDotted text then .ok text else .error (.notDotted text)
  | qualified name outer => do
    let inner ← name.text?
    return (← outer.text?) ++ "." ++ inner

def make? : NameTerm → Except NameError DottedName
  | written text => DottedName.ofString w text
  | qualified name outer => do
    let inner ← name.make?
    return inner.qualify (← outer.make?)

/-- The text that is put together is that of the name that is. -/
theorem text?_eq (e : NameTerm) : e.text? w = (e.make? w).map DottedName.text := by
  induction e with
  | written text =>
    by_cases h : w.isDotted text = true
    · rw [text?, make?, if_pos h, DottedName.ofString, dif_pos h]
      rfl
    · rw [text?, make?, if_neg h, DottedName.ofString, dif_neg h]
      rfl
  | qualified name outer ihn iho =>
    rw [text?, make?, ihn, iho]
    cases name.make? w with
    | error e => rfl
    | ok inner => cases outer.make? w <;> rfl

theorem exists_make?_iff (e : NameTerm) :
    (∃ name, e.make? w = .ok name) ↔ ∀ text ∈ e.texts, w.isDotted text = true := by
  induction e with
  | written text =>
    by_cases h : w.isDotted text = true <;> simp [make?, texts, DottedName.ofString, h]
  | qualified name outer ihn iho =>
    simp only [texts, List.mem_append, or_imp, forall_and, ← ihn, ← iho, make?]
    cases name.make? w <;> cases outer.make? w <;> simp [bind, Except.bind, pure, Except.pure]

end Making

variable {w : WordChars}

/-- What is put together from dotted names is one, and so would pass the check itself. -/
theorem isDotted_make? {e : NameTerm} {name : DottedName} (h : e.make? w = .ok name) :
    w.isDotted name.text = true := by
  induction e generalizing name with
  | written text =>
    rw [make?, DottedName.ofString] at h
    split at h
    · cases h
      assumption
    · cases h
  | qualified inner outer ihi iho =>
    rw [make?] at h
    cases hinner : inner.make? w with
    | error err =>
      rw [hinner] at h
      cases h
    | ok i =>
      cases houter : outer.make? w with
      | error err =>
        rw [hinner, houter] at h
        cases h
      | ok o =>
        rw [hinner, houter] at h
        cases h
        rw [DottedName.qualify, w.isDotted_join, ihi hinner, iho houter]
        rfl

end NameTerm

namespace DottedName

theorem ofString_text {w : WordChars} {name : DottedName} (h : w.isDotted name.text = true) :
    ofString w name.text = .ok name :=
  dif_pos h

theorem qualify_qualify (a b c : DottedName) :
    (a.qualify b).qualify c = a.qualify (b.qualify c) :=
  ext_text (by simp [qualify, String.append_assoc])

end DottedName

/-- Two texts with a full stop between them are a dotted name exactly if both are. A dotted name is one
list of segments. A name put together from names by full stops alone is accepted like a written one,
and it does not matter in which order it is qualified. -/
theorem isDotted_iff_segmented {w : WordChars} (hw : w.IsDotFree) :
    (∀ x y, w.isDotted (x ++ "." ++ y) = true ↔ w.isDotted x = true ∧ w.isDotted y = true) ∧
    (∀ s, w.isDotted s = true ↔ ∃ parts, IsSegmented w s parts) ∧
    (∀ s parts parts', IsSegmented w s parts → IsSegmented w s parts' → parts = parts') ∧
    (∀ e : NameTerm,
      (∃ text, e.text? w = .ok text) ↔ ∀ text ∈ e.texts, w.isDotted text = true) ∧
    (∀ (e : NameTerm) text, e.text? w = .ok text →
      w.isDotted text = true ∧ ∃ name, DottedName.ofString w text = .ok name ∧ name.text = text) ∧
    ∀ a b c : DottedName, (a.qualify b).qualify c = a.qualify (b.qualify c) := by
  refine ⟨fun x y => by simp [w.isDotted_join], fun s => ⟨fun h => ⟨_, .of_isDotted h⟩, ?_⟩, ?_, ?_,
    ?_, DottedName.qualify_qualify⟩
  · rintro ⟨parts, h⟩
    exact h.isDotted hw
  · intro s parts parts' h h'
    rw [← h.segments_eq hw, h'.segments_eq hw]
  · intro e
    rw [← e.exists_make?_iff, e.text?_eq]
    cases e.make? w <;> simp [Except.map]
  · intro e text htext
    rw [e.text?_eq] at htext
    cases hmake : e.make? w with
    | error err => simp [hmake, Except.map] at htext
    | ok name =>
      obtain rfl : name.text = text := by simpa [hmake, Except.map] using htext
      have hname := NameTerm.isDotted_make? hmake
      exact ⟨hname, name, DottedName.ofString_text hname, rfl⟩

/-- The letters, digits and low lines of ASCII. -/
def asciiWords : WordChars := ⟨Char.isAlpha, fun c => c.isAlphanum || c == '_'⟩

theorem isDotted_iff_segmented_ascii :
    asciiWords.IsDotFree ∧
      (NameTerm.qualified (.written "$props") (.written "Css.Page")).text? asciiWords =
        .ok "Css.Page.$props" ∧
      ∃ name, DottedName.ofString asciiWords "Css.Page.$props" = .ok name ∧
        name.text = "Css.Page.$props" := by
  have hwords : asciiWords.IsDotFree := by
    refine ⟨fun c hc => ?_, rfl⟩
    have halpha : c.isAlpha = true := hc
    simp [asciiWords, Char.isAlphanum, halpha]
  have hname : asciiWords.isDotted "$props" = true := by decide +kernel
  have houter : asciiWords.isDotted "Css.Page" = true := by decide +kernel
  have htext : (NameTerm.qualified (.written "$props") (.written "Css.Page")).text? asciiWords =
      .ok "Css.Page.$props" := by
    rw [NameTerm.text?, NameTerm.text?, NameTerm.text?, if_pos hname, if_pos houter]
    rfl
  obtain ⟨-, -, -, -, haccepted, -⟩ := isDotted_iff_segmented hwords
  exact ⟨hwords, htext, (haccepted _ _ htext).2⟩

end ParseLog
