import ParseLog.JoinError
import ParseLog.Log.Compaction
/-!
# Merging the logs of branches

The compact logs of the branches are merged from their fronts. At each step the first rule that
applies gives the next event and takes it off the branches that have it:

* the first chunk in front of a branch stands for the chunks in front of all;
* the first value of a multi-variable is intersected with the values of that variable in front, and
  a branch without one contributes the empty set;
* otherwise all branches have to agree.

Main statement: every step takes at least one event off a branch, so the merge ends.
-/

namespace ParseLog
set_option autoImplicit false

/-- The events that the branches have not contributed yet, branch by branch. -/
abbrev Pending := List (List Event)

namespace Pending

def total (p : Pending) : Nat := p.flatten.length

/-- The event in front of each branch. -/
def fronts (p : Pending) : List (Option Event) := p.map List.head?

/-- Takes off the event in front if `taken` holds of it. -/
def dropFront (taken : Event → Bool) : List Event → List Event
  | [] => []
  | e :: later => if taken e then later else e :: later

def advance (taken : Event → Bool) (p : Pending) : Pending := p.map (dropFront taken)

end Pending

/-- The event, if it is a chunk. -/
def Event.chunk? : Event → Option Event
  | .chunk c => some (.chunk c)
  | _ => none

/-- The value of a multi-variable, if the event is one. -/
def Event.multiValue? : Event → Option Value
  | .value a => if a.var.isMulti then some a else none
  | _ => none

/-- A value of a multi-variable with the empty set in place of its own. -/
def Value.emptied (a : Value) : Value := a.var.emptySet?.getD a

/-- Intersects with the value in front of one branch, or with the empty set if there is none. -/
def Value.meetFront (a : Value) : Option Event → Except Violation Value
  | some (.value b) => if b.var = a.var then a.inter b else .ok a.emptied
  | _ => .ok a.emptied

def describeFront : Option Event → String
  | some e => e.render .long
  | none => "<end of output>"

/-- The event in front of every branch. -/
def sharedFront : List (Option Event) → Except JoinError (Option Event)
  | [] => .ok none
  | first :: others =>
    match others.find? (· ≠ first) with
    | some other =>
      .error (.disagreement "Outputs cannot be reconciled" (describeFront first) (describeFront other))
    | none => .ok first

/-- The next merged event and what the branches have left; nothing if no branch has anything. -/
def Pending.step (p : Pending) : Except JoinError (Option (Event × Pending)) :=
  let fronts := p.fronts
  match fronts.findSome? (·.bind Event.chunk?) with
  | some e => .ok (some (e, p.advance Event.isChunk))
  | none =>
    match fronts.findSome? (·.bind Event.multiValue?) with
    | some first => do
      let merged ← JoinError.lift (fronts.foldlM Value.meetFront first)
      return some (.value merged, p.advance (·.sets merged.var))
    | none => do
      match ← sharedFront fronts with
      | some e => return some (e, p.advance (· = e))
      | none => return none

namespace Pending

theorem length_dropFront_le (taken : Event → Bool) (es : List Event) :
    (dropFront taken es).length ≤ es.length := by
  unfold dropFront
  split
  · exact Nat.le_refl _
  · split <;> simp

@[simp] theorem total_cons (es : List Event) (p : Pending) :
    total (es :: p) = es.length + p.total := by
  simp [total]

@[simp] theorem advance_cons (taken : Event → Bool) (es : List Event) (p : Pending) :
    advance taken (es :: p) = dropFront taken es :: p.advance taken := rfl

theorem total_advance_le (taken : Event → Bool) (p : Pending) :
    (p.advance taken).total ≤ p.total := by
  induction p with
  | nil => exact Nat.le_refl _
  | cons es p ih =>
    have := length_dropFront_le taken es
    simp only [advance_cons, total_cons]
    omega

theorem total_advance_lt {taken : Event → Bool} {p : Pending} {e : Event}
    (he : some e ∈ p.fronts) (htaken : taken e = true) : (p.advance taken).total < p.total := by
  induction p with
  | nil => simp [fronts] at he
  | cons es p ih =>
    have hle := total_advance_le taken p
    have hes := length_dropFront_le taken es
    simp only [advance_cons, total_cons]
    rcases List.mem_cons.1 he with he | he
    · have hlt : (dropFront taken es).length < es.length := by
        cases es with
        | nil => cases he
        | cons x later => cases he; simp [dropFront, htaken]
      omega
    · have := ih he
      omega

end Pending

theorem Value.emptied_var (a : Value) : a.emptied.var = a.var := by
  unfold emptied Variable.emptySet?
  split <;> rfl

theorem Value.inter_var {a b c : Value} (h : a.inter b = .ok c) : c.var = a.var := by
  unfold inter at h
  split at h
  · split at h
    · cases h; rfl
    · cases h
  · cases h
  · cases h

theorem Value.meetFront_var {a c : Value} {front : Option Event} (h : a.meetFront front = .ok c) :
    c.var = a.var := by
  unfold meetFront at h
  split at h
  · split at h
    · exact inter_var h
    · cases h; exact emptied_var a
  · cases h; exact emptied_var a

theorem Value.foldlM_meetFront_var {a c : Value} {fronts : List (Option Event)}
    (h : fronts.foldlM Value.meetFront a = .ok c) : c.var = a.var := by
  induction fronts generalizing a with
  | nil => cases h; rfl
  | cons front fronts ih =>
    simp only [List.foldlM_cons] at h
    cases hfront : a.meetFront front with
    | error v => rw [hfront] at h; cases h
    | ok b =>
      rw [hfront] at h
      rw [ih h, meetFront_var hfront]

theorem mem_fronts_of_sharedFront {fronts : List (Option Event)} {e : Event}
    (h : sharedFront fronts = .ok (some e)) : some e ∈ fronts := by
  unfold sharedFront at h
  split at h
  · cases h
  · split at h
    · cases h
    · cases h; simp

theorem Pending.total_lt_of_step {p q : Pending} {e : Event} (h : p.step = .ok (some (e, q))) :
    q.total < p.total := by
  unfold step at h
  simp only at h
  split at h
  · rename_i e' hfind
    cases h
    obtain ⟨front, hmem, hchunk⟩ := List.exists_of_findSome?_eq_some hfind
    obtain ⟨f, rfl, hf⟩ := Option.bind_eq_some_iff.1 hchunk
    refine Pending.total_advance_lt hmem ?_
    cases f <;> simp_all [Event.chunk?, Event.isChunk]
  · split at h
    · rename_i first hfind
      cases hmerged : p.fronts.foldlM Value.meetFront first with
      | error v => rw [hmerged] at h; cases h
      | ok merged =>
        rw [hmerged] at h
        cases h
        obtain ⟨front, hmem, hmulti⟩ := List.exists_of_findSome?_eq_some hfind
        obtain ⟨f, rfl, hf⟩ := Option.bind_eq_some_iff.1 hmulti
        refine Pending.total_advance_lt hmem ?_
        have hvar := Value.foldlM_meetFront_var hmerged
        cases f with
        | value a =>
          simp only [Event.multiValue?] at hf
          split at hf
          · cases hf; simp [Event.sets, Value.isOf, hvar]
          · cases hf
        | _ => simp [Event.multiValue?] at hf
    · cases hshared : sharedFront p.fronts with
      | error v => rw [hshared] at h; cases h
      | ok front =>
        rw [hshared] at h
        cases front with
        | none => cases h
        | some f =>
          cases h
          exact Pending.total_advance_lt (mem_fronts_of_sharedFront hshared) (by simp)

/-- All the merged events, in order. -/
def Pending.merge (p : Pending) : Except JoinError (List Event) :=
  match _h : p.step with
  | .error err => .error err
  | .ok none => .ok []
  | .ok (some (e, q)) => q.merge.map (e :: ·)
termination_by p.total
decreasing_by exact total_lt_of_step _h

/-- The one log that stands for the logs of all branches. -/
def jointLog (logs : List Log) : Except JoinError Log :=
  if logs.isEmpty then .error .nothingToJoin
  else do
    let compact ← JoinError.lift (logs.mapM Log.compact)
    let merged ← Pending.merge (compact.map Log.toList)
    return Log.absorbAll ∅ merged

end ParseLog
