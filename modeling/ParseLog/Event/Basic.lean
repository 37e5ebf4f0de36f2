import ParseLog.Text.Quoted
import ParseLog.Variable.Value
/-!
# Events

Everything a parse records is an event: a bracket of a region, a chunk of matched input, a value of
a variable, or a marker of speculative work. Neighbouring chunks, and neighbouring values of one
variable, coalesce into one event.
-/

namespace ParseLog
set_option autoImplicit false

/-- A piece of matched input, as the grammar saw it and as it stood in the input. -/
structure Chunk where
  decoded : String
  raw : String
  deriving DecidableEq

instance : Append Chunk where
  append a b := ⟨a.decoded ++ b.decoded, a.raw ++ b.raw⟩

/-- A chunk of text that stands in the input as the grammar sees it. -/
def Chunk.plain (text : String) : Chunk := ⟨text, text⟩

/-- A chunk whose decoded text stands encoded in the input. -/
def Chunk.encoded (encoding : Encoding) (text : String) : Chunk := ⟨text, encoding.encode text⟩

inductive Event where
  | bracket (b : Bracket)
  | chunk (c : Chunk)
  | value (a : Value)
  | marker (m : Marker)
  deriving DecidableEq

namespace Event

def isChunk : Event → Bool
  | chunk _ => true
  | _ => false

def isValue : Event → Bool
  | value _ => true
  | _ => false

def isBracket : Event → Bool
  | bracket _ => true
  | _ => false

def isMarker : Event → Bool
  | marker _ => true
  | _ => false

/-- Whether the event is a value of `v`. -/
def sets (e : Event) (v : Variable) : Bool :=
  match e with
  | value a => a.isOf v
  | _ => false

theorem sets_iff {e : Event} {v : Variable} :
    e.sets v = true ↔ ∃ a, e = value a ∧ a.var = v := by
  cases e <;> simp [sets, Value.isOf]

/-- The decoded text that the event contributes. -/
def decoded : Event → String
  | chunk c => c.decoded
  | _ => ""

/-- The text of the input that the event accounts for. -/
def raw : Event → String
  | chunk c => c.raw
  | _ => ""

/-- The one event that stands for `first` and the event right after it, if there is one. -/
def coalesce? (first next : Event) : Option Event :=
  match first, next with
  | chunk a, chunk b => some (chunk (a ++ b))
  | value a, value b => if a.var = b.var then some next else none
  | _, _ => none

/-- Only chunks, and values of one variable, coalesce. -/
theorem coalesce?_cases {a b m : Event} (h : a.coalesce? b = some m) :
    (∃ c d, a = chunk c ∧ b = chunk d ∧ m = chunk (c ++ d)) ∨
      ∃ x y, a = value x ∧ b = value y ∧ x.var = y.var ∧ m = value y := by
  cases a <;> cases b <;> simp only [coalesce?, reduceCtorEq] at h
  case chunk.chunk c d => exact .inl ⟨c, d, rfl, rfl, (Option.some.inj h).symm⟩
  case value.value x y =>
    obtain ⟨hvar, hy⟩ := Option.ite_none_right_eq_some.mp h
    exact .inr ⟨x, y, rfl, rfl, hvar, (Option.some.inj hy).symm⟩

/-- Whether the event may move past others of its kind: only values may. -/
def isMovable : Event → Bool := isValue

/-- The place of a kind of event among the others. -/
def rank : Event → Nat
  | marker _ => 0
  | chunk _ => 1
  | value _ => 2
  | bracket _ => 3

/-- Markers come before chunks and chunks before values; within a kind, the order of markers, of raw
texts or of variable names decides. Brackets have no place in the order. -/
def order? (a b : Event) : Option Ordering :=
  match a, b with
  | bracket _, _ => none
  | _, bracket _ => none
  | marker m, marker n => some (compare m n)
  | chunk c, chunk d => some (compare c.raw d.raw)
  | value x, value y => some (compare x.var.name y.var.name)
  | _, _ => some (compare a.rank b.rank)

def render (e : Event) (lvl : Detail) : String :=
  match e with
  | bracket b => b.render lvl
  | chunk c => Text.quote c.decoded
  | value a => a.render
  | marker m => m.render

/-- The event with the decoded text of a chunk in place of its raw text. -/
def forgetRaw : Event → Event
  | chunk c => chunk (.plain c.decoded)
  | e => e

/-- Events are alike when they differ at most in the raw text of a chunk. -/
def Alike (a b : Event) : Prop := a.forgetRaw = b.forgetRaw

instance (a b : Event) : Decidable (Alike a b) :=
  inferInstanceAs (Decidable (a.forgetRaw = b.forgetRaw))

theorem Alike.refl (a : Event) : Alike a a := rfl

theorem Alike.symm {a b : Event} (h : Alike a b) : Alike b a := Eq.symm h

theorem Alike.trans {a b c : Event} (h : Alike a b) (h' : Alike b c) : Alike a c := Eq.trans h h'

theorem alike_chunk_iff {c d : Chunk} : Alike (chunk c) (chunk d) ↔ c.decoded = d.decoded := by
  simp [Alike, forgetRaw, Chunk.plain]

end Event

/-- The decoded texts of the events, one after the other. -/
def decodedText (es : List Event) : String := String.join (es.map Event.decoded)

/-- The raw texts of the events, one after the other. -/
def rawText (es : List Event) : String := String.join (es.map Event.raw)

@[simp] theorem decodedText_append (es fs : List Event) :
    decodedText (es ++ fs) = decodedText es ++ decodedText fs := by
  simp [decodedText]

@[simp] theorem rawText_append (es fs : List Event) :
    rawText (es ++ fs) = rawText es ++ rawText fs := by
  simp [rawText]

end ParseLog
