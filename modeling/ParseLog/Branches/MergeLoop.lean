import ParseLog.Branches.Merge
/-!
# The merge as a loop

The loop goes on while a branch has anything left. A round tries the rules in order, and the first
that applies to the fronts gives the next event. Which branches then lose their fronts is another
question: those whose front the event accounts for. A round to which no rule applies breaks the loop
off, whatever is left. Nothing in the definition makes the loop end.
-/

namespace ParseLog
set_option autoImplicit false

inductive MergeRule where
  /-- Any chunk in front stands for all of them. -/
  | chunks
  /-- The values of a multi-variable in front are intersected. -/
  | sets
  /-- All fronts are alike. -/
  | agreement
  deriving DecidableEq

namespace MergeRule

def inOrder : List MergeRule := [chunks, sets, agreement]

/-- The event that the fronts give by the rule, if it applies. -/
def merge? (fronts : List (Option Event)) : MergeRule → Except JoinError (Option Event)
  | chunks => .ok (fronts.findSome? (·.bind Event.chunk?))
  | sets =>
    match fronts.findSome? (·.bind Event.multiValue?) with
    | some first => (JoinError.lift (fronts.foldlM Value.meetFront first)).map (some ∘ Event.value)
    | none => .ok none
  | agreement =>
    let first := fronts.head?.join
    match fronts.find? fun front => front.map Event.forgetRaw ≠ first.map Event.forgetRaw with
    | some other =>
      .error (.disagreement "Outputs cannot be reconciled" (describeFront first) (describeFront other))
    | none => .ok first

/-- Whether a branch with `front` in front has contributed to the event `merged`. -/
def accountsFor (merged front : Event) : MergeRule → Bool
  | chunks => front.isChunk
  | sets =>
    match merged, front with
    | .value a, .value b => a.var = b.var
    | _, _ => false
  | agreement => Event.Alike merged front

/-- The first rule that applies, with the event that it gives. -/
def choose (fronts : List (Option Event)) : Except JoinError (Option (MergeRule × Event)) :=
  inOrder.findSomeM? fun rule => return (← rule.merge? fronts).map (rule, ·)

end MergeRule

structure MergeLoop where
  pending : Pending
  merged : Log

namespace MergeLoop

def start (branches : List Log) : MergeLoop := ⟨branches.map Log.toList, ∅⟩

def isDrained (s : MergeLoop) : Bool := s.pending.all List.isEmpty

/-- The next state; nothing if no rule applies. -/
def round (s : MergeLoop) : Except JoinError (Option MergeLoop) := do
  match ← MergeRule.choose s.pending.fronts with
  | some (rule, e) =>
    return some ⟨s.pending.advance fun front => rule.accountsFor e front, s.merged.absorb e⟩
  | none => return none

/-- The state in which the loop ends, or the error; nothing if it goes on for ever. -/
def run (s : MergeLoop) : Option (Except JoinError MergeLoop) :=
  if s.isDrained then some (.ok s)
  else
    match s.round with
    | .error err => some (.error err)
    | .ok none => some (.ok s)
    | .ok (some s') => s' |>.run
partial_fixpoint

end MergeLoop

/-- The joint log as the loop gives it; nothing if the loop goes on for ever. -/
def jointLog? (logs : List Log) : Option (Except JoinError Log) :=
  if logs.isEmpty then some (.error .nothingToJoin)
  else
    match JoinError.lift (logs.mapM Log.compact) with
    | .error err => some (.error err)
    | .ok branches => (MergeLoop.start branches).run.map (Except.map MergeLoop.merged)

end ParseLog
