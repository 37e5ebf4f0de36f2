import ParseLog.Event.Basic
/-!
# The log

The log holds the events of a parse, the most recent first, so a branch extends it without touching
what a sibling branch sees. `append` adds an event as it is, `absorb` lets it coalesce with the event
before it.
-/

namespace ParseLog
set_option autoImplicit false

structure Log where
  /-- The events, the most recent first. -/
  recent : List Event
  deriving DecidableEq

namespace Log

def empty : Log := ⟨[]⟩

instance : EmptyCollection Log := ⟨empty⟩

def isEmpty (l : Log) : Bool := l.recent.isEmpty

def length (l : Log) : Nat := l.recent.length

def head? (l : Log) : Option Event := l.recent.head?

def tail (l : Log) : Log := ⟨l.recent.tail⟩

/-- The log without its `n` most recent events. -/
def drop (l : Log) (n : Nat) : Log := ⟨l.recent.drop n⟩

/-- The events in the order in which they were added. -/
def toList (l : Log) : List Event := l.recent.reverse

def append (l : Log) (e : Event) : Log := ⟨e :: l.recent⟩

def appendAll (l : Log) (es : List Event) : Log := es.foldl append l

def ofList (es : List Event) : Log := appendAll ∅ es

/-- Adds an event, as one with the most recent event if the two coalesce. -/
def absorb (l : Log) (e : Event) : Log :=
  match l.recent with
  | [] => l.append e
  | last :: older =>
    match last.coalesce? e with
    | some merged => ⟨merged :: older⟩
    | none => l.append e

def absorbAll (l : Log) (es : List Event) : Log := es.foldl absorb l

/-- The events in order, between square brackets. -/
def render (l : Log) : String :=
  "[" ++ ", ".intercalate (l.toList.map (·.render .long)) ++ "]"

/-- Logs are alike when their events are, one by one. -/
def Alike (l l' : Log) : Prop :=
  l.recent.map Event.forgetRaw = l'.recent.map Event.forgetRaw

instance (l l' : Log) : Decidable (Alike l l') :=
  inferInstanceAs (Decidable (_ = _))

theorem ext_toList {l l' : Log} (h : l.toList = l'.toList) : l = l' := by
  cases l; cases l'
  simpa [toList] using h

theorem eq_empty_or_append (l : Log) : l = ∅ ∨ ∃ older last, l = append older last := by
  obtain ⟨es⟩ := l
  cases es with
  | nil => exact .inl rfl
  | cons last older => exact .inr ⟨⟨older⟩, last, rfl⟩

theorem absorb_append {a b m : Event} (l : Log) (hm : a.coalesce? b = some m) :
    (l.append a).absorb b = l.append m := by
  simp [append, absorb, hm]

theorem absorb_append_of_none {a b : Event} (l : Log) (hb : a.coalesce? b = none) :
    (l.append a).absorb b = (l.append a).append b := by
  simp [append, absorb, hb]

theorem absorb_eq_append {l : Log} {e : Event} (h : ∀ a ∈ l.recent.head?, a.coalesce? e = none) :
    l.absorb e = l.append e := by
  obtain rfl | ⟨older, last, rfl⟩ := l.eq_empty_or_append
  · rfl
  · exact absorb_append_of_none older (h last rfl)

/-- An event is appended as it is, or the most recent event gives way to one that stands for both. -/
theorem absorb_cases (l : Log) (e : Event) :
    ((∀ a ∈ l.recent.head?, a.coalesce? e = none) ∧ l.absorb e = l.append e) ∨
      ∃ (older : Log) (last merged : Event), l = older.append last ∧
        last.coalesce? e = some merged ∧ l.absorb e = older.append merged := by
  by_cases h : ∀ a ∈ l.recent.head?, a.coalesce? e = none
  · exact .inl ⟨h, absorb_eq_append h⟩
  · obtain rfl | ⟨older, last, rfl⟩ := l.eq_empty_or_append
    · exact absurd (fun a ha => nomatch ha) h
    · cases hm : last.coalesce? e with
      | none =>
        refine absurd (fun a ha => ?_) h
        obtain rfl : last = a := Option.some.inj ha
        exact hm
      | some merged => exact .inr ⟨older, last, merged, rfl, hm, absorb_append older hm⟩

@[simp] theorem recent_appendAll (l : Log) (es : List Event) :
    (l.appendAll es).recent = es.reverse ++ l.recent := by
  induction es generalizing l with
  | nil => rfl
  | cons e es ih =>
    have h := ih (l.append e)
    simp only [appendAll, append] at h
    simp [appendAll, append, h]

@[simp] theorem toList_append (l : Log) (e : Event) :
    (l.append e).toList = l.toList ++ [e] := by
  simp [toList, append]

@[simp] theorem toList_appendAll (l : Log) (es : List Event) :
    (l.appendAll es).toList = l.toList ++ es := by
  simp [toList]

@[simp] theorem toList_ofList (es : List Event) : (ofList es).toList = es := by
  simp [ofList, toList, EmptyCollection.emptyCollection, empty]

end Log

end ParseLog
