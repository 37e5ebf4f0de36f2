import ParseLog.Proofs.Branches.Joint
import ParseLog.Proofs.Log.Transcript
/-!
# Aligned branches

Branches are aligned if they have chunks, values of the same multi-variable or equal events of
another kind at the same places. A turn takes the event in front of all of them.
-/

namespace ParseLog
set_option autoImplicit false

/-- The event without what branches may differ in: the texts of a chunk and the symbols of a
multi-variable. -/
def Event.outline : Event → Event
  | chunk _ => chunk .blank
  | value a => value a.emptied
  | e => e

theorem Event.outline_eq_value {a b : Value} (h : (value a).outline = (value b).outline) :
    a.var = b.var := by
  have hemptied : a.emptied = b.emptied := by simpa [outline] using h
  rw [← Value.emptied_var a, ← Value.emptied_var b, hemptied]

theorem Event.isChunk_of_outline {e : Event} {c : Chunk} (h : e.outline = (chunk c).outline) :
    e.isChunk = true := by
  cases e <;> simp_all [outline, isChunk]

theorem Event.exists_of_outline {e : Event} {a : Value} (h : e.outline = (value a).outline) :
    ∃ b, e = value b ∧ b.var = a.var := by
  cases e <;> simp only [outline, reduceCtorEq] at h
  case value b => exact ⟨b, rfl, outline_eq_value h⟩

namespace Pending

/-- Whether all branches have the outline `o`. -/
def Aligned (p : Pending) (o : List Event) : Prop := ∀ es ∈ p, es.map Event.outline = o

theorem Aligned.front {p : Pending} {o : List Event} (h : p.Aligned o) {e : Event}
    (he : some e ∈ p.fronts) {es : List Event} (hes : es ∈ p) :
    ∃ x later, es = x :: later ∧ x.outline = e.outline := by
  obtain ⟨es', hes', hhead⟩ := List.mem_map.mp he
  cases es' with
  | nil => cases hhead
  | cons y later' =>
    obtain rfl : y = e := by simpa using hhead
    have heq : es.map Event.outline = (y :: later').map Event.outline := by
      rw [h es hes, h _ hes']
    obtain ⟨x, later, rfl, hx, -⟩ := List.map_eq_cons_iff.mp heq
    exact ⟨x, later, rfl, hx⟩

theorem Turn.exists_front {p q : Pending} {e : Event} (h : p.Turn e q) :
    ∃ x, some x ∈ p.fronts := by
  obtain ⟨-, x, -, hx, -⟩ := h.exists_taken
  exact ⟨x, hx⟩

theorem Aligned.exists_cons {p q : Pending} {e : Event} {o : List Event} (h : p.Aligned o)
    (hturn : p.Turn e q) : ∃ x later, o = x :: later := by
  obtain ⟨x, hx⟩ := hturn.exists_front
  obtain ⟨es, hes, -⟩ := List.mem_map.mp hx
  obtain ⟨y, later, rfl, -⟩ := h.front hx hes
  exact ⟨y.outline, later.map Event.outline, (h _ hes).symm⟩

theorem advance_eq_map_tail {taken : Event → Bool} {p : Pending}
    (h : ∀ es ∈ p, ∃ x later, es = x :: later ∧ taken x = true) :
    p.advance taken = p.map List.tail := by
  apply List.map_congr_left
  intro es hes
  obtain ⟨x, later, rfl, hx⟩ := h es hes
  simp [dropFront, hx]

section Turn
variable {p q : Pending} {e : Event} {o : List Event} (h : p.Aligned o) (hturn : p.Turn e q)
include h hturn

/-- A turn takes the front off all aligned branches. -/
theorem eq_map_tail_of_turn : q = p.map List.tail := by
  cases hturn with
  | chunk front =>
    apply advance_eq_map_tail
    intro es hes
    obtain ⟨x, later, rfl, hx⟩ := h.front front hes
    exact ⟨x, later, rfl, Event.isChunk_of_outline hx⟩
  | @meet m _ bound =>
    obtain ⟨-, a, hvar, ha⟩ := bound
    apply advance_eq_map_tail
    intro es hes
    obtain ⟨x, later, rfl, hx⟩ := h.front ha hes
    obtain ⟨b, rfl, hb⟩ := Event.exists_of_outline hx
    exact ⟨_, later, rfl, by simp [Event.sets, Value.isOf, hb, hvar]⟩
  | share _ _ all =>
    apply advance_eq_map_tail
    intro es hes
    obtain ⟨later, rfl⟩ := List.head?_eq_some_iff.mp (all _ (mem_fronts hes))
    exact ⟨_, later, rfl, by simp⟩

theorem aligned_turn : q.Aligned o.tail := by
  rw [eq_map_tail_of_turn h hturn]
  intro es hes
  obtain ⟨es', hes', rfl⟩ := List.mem_map.mp hes
  rw [List.map_tail, h es' hes']

end Turn

end Pending

/-- Whether the compact logs have one outline. -/
def LogsAligned (logs : List Log) : Prop :=
  ∃ o, ∀ l ∈ logs, ∀ c, l.compact = .ok c → c.toList.map Event.outline = o

theorem LogsAligned.pending {logs cs : List Log} (h : LogsAligned logs)
    (hcs : logs.mapM Log.compact = .ok cs) : ∃ o, Pending.Aligned (cs.map Log.toList) o := by
  obtain ⟨o, ho⟩ := h
  refine ⟨o, fun es hes => ?_⟩
  obtain ⟨c, hc, rfl⟩ := List.mem_map.mp hes
  obtain ⟨l, hl, hcompact⟩ := mem_of_compact hcs hc
  exact ho l hl c hcompact

/-! ### Branches that are not aligned -/

namespace Unaligned

def tag : Bracket := ⟨.left, .boundary ⟨"Tag", by decide +kernel⟩⟩

def context : Enumeration := ⟨"AttrT", "codec", ["Plain", "Script", "Style", "Url"]⟩

def holding (name : DottedName) (s : Symbol) : Value :=
  ⟨⟨name, .multi context⟩, .symbols ⟨[s], by simp⟩, fun _ => rfl⟩

def url : Value := holding ⟨"v", by decide +kernel⟩ ⟨context, 3, "Url"⟩

def style : Value := holding ⟨"w", by decide +kernel⟩ ⟨context, 2, "Style"⟩

def plain : Log := Log.ofList [.bracket tag, .chunk (.plain "a")]

def bound : Log := Log.ofList [.bracket tag, .value url, .chunk (.plain "a")]

/-- One value before a region, the other inside. -/
def nested (outer inner : Value) : Log :=
  Log.ofList [.value outer, .bracket tag, .value inner, .bracket tag.other]

end Unaligned

end ParseLog
