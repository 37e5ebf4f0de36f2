import ParseLog.Branches.Join
import ParseLog.Forest.Listing
import ParseLog.Log.Lookup
import ParseLog.Log.Speculation
import ParseLog.Workspace.Basic
/-!
# Commands on a workspace

A command works on one log and one input and names where its results go. A command that fails leaves
the workspace as it was.
-/

namespace ParseLog
set_option autoImplicit false

/-- The names of the log and the input to work on and of those to store. -/
structure Slots where
  log : String
  toLog : String
  input : String
  toInput : String

/-- Which brackets delimit the scope of a search. -/
inductive ScopeChoice where
  | none
  | all
  | region (r : Region)

def ScopeChoice.delimits : ScopeChoice → Bracket → Bool
  | none, _ => false
  | all, _ => true
  | region r, b => b.region = r

/-- Which event a search is for. -/
inductive Wanted where
  | any
  | chunk
  | value
  | bracket
  | marker
  | alike (e : Event)

def Wanted.matches : Wanted → Event → Bool
  | any, _ => true
  | chunk, e => e.isChunk
  | value, e => e.isValue
  | bracket, e => e.isBracket
  | marker, e => e.isMarker
  | alike e, e' => Event.Alike e' e

inductive Command where
  | record (es : List Event)
  | append (e : Event)
  | absorb (e : Event)
  | appendMany (e : Event) (n : Nat)
  | push (m : Marker)
  | fork
  | tail
  | drop (n : Nat)
  | split
  | rollback (m : Marker)
  | commit (m : Marker)
  /-- Commits and reports the events since the marker. -/
  | commitObserved (m : Marker)
  | commitRound
  | inspect
  | compare (other : String)
  | binding (v : Variable)
  | read (v : Variable)
  | last (scope : ScopeChoice) (wanted : Wanted)
  | dump
  | compact
  | jointLog (logs : List String)
  | jointInput (inputs : List String)
  | join (branches : List (String × String))
  | enter (i : Input)
  | move (m : Input.Move)
  /-- Consumes `raw` and records it as a chunk. -/
  | eat (decoded raw : String)

inductive Reply where
  /-- A log was stored, and perhaps more is to be told about it. -/
  | stored (l : Log)
  | storedFirst (l : Log) (first : Event)
  | storedInput (l : Log) (i : Input)
  | storedSeen (l : Log) (seen : List Event)
  | storedConsumed (l : Log) (consumed : Bool)
  /-- There was no event to split off. -/
  | nothingToSplit
  | input (i : Input)
  /-- The text to consume was not next. -/
  | notNext
  | inspected (l : Log)
  | compared (same alike : Bool)
  | current (a : Option Value)
  | reading (d : Option Datum)
  | found (e : Option Event)
  | dump (text : String)
  | violation (v : Violation)
  | violationSeen (v : Violation) (seen : List Event)
  | joinError (err : JoinError)

namespace Workspace

/-- Stores the outcome of joining, if there is one. -/
def storeJoined (w : Workspace) (target : String) : Except JoinError Log → Workspace × Reply
  | .error err => (w, .joinError err)
  | .ok l => (w.storeNewLog target l, .stored l)

def run (w : Workspace) (s : Slots) (c : Command) : Workspace × Reply :=
  let l := w.log s.log
  let i := w.input s.input
  let store (l' : Log) (added : Nat) : Workspace := w.storeLog s.log s.toLog l' added
  match c with
  | .record es =>
    let l' := Log.ofList es
    (w.storeNewLog s.toLog l', .stored l')
  | .append e => (store (l.append e) 1, .stored (l.append e))
  | .absorb e => (store (l.absorb e) 1, .stored (l.absorb e))
  | .appendMany e n =>
    let l' := l.appendAll (List.replicate n e)
    (store l' n, .stored l')
  | .push m => (store (l.mark m) 1, .stored (l.mark m))
  | .fork => (store l 0, .stored l)
  | .tail => (store l.tail 0, .stored l.tail)
  | .drop n => (store (l.drop n) 0, .stored (l.drop n))
  | .split =>
    match l.head? with
    | none => (w, .nothingToSplit)
    | some first => (store l.tail 0, .storedFirst l.tail first)
  | .rollback m =>
    match l.rollback m i with
    | .error v => (w, .violation v)
    | .ok (l', i') => ((store l' 0).storeInput s.toInput i', .storedInput l' i')
  | .commit m =>
    match l.commit m with
    | .error v => (w, .violation v)
    | .ok l' => (store l' (l.since m).length, .stored l')
  | .commitObserved m =>
    match l.commitFold m (fun seen e => e :: seen) [] with
    | (seen, .error v) => (w, .violationSeen v seen.reverse)
    | (seen, .ok l') => (store l' (l.since m).length, .storedSeen l' seen.reverse)
  | .commitRound =>
    match l.commitRound with
    | .error v => (w, .violation v)
    | .ok (l', consumed) => (store l' (l.since .loop).length, .storedConsumed l' consumed)
  | .inspect => (w, .inspected l)
  | .compare other =>
    (w, .compared ((w.position s.log).same (w.position other)) (Log.Alike l (w.log other)))
  | .binding v =>
    match l.binding v with
    | .error err => (w, .violation err)
    | .ok a => (w, .current a)
  | .read v =>
    match l.read v with
    | .error err => (w, .violation err)
    | .ok x => (w, .reading (x.map v.type.write))
  | .last scope wanted => (w, .found (l.findInScope scope.delimits wanted.matches))
  | .dump =>
    match l.forest with
    | .error v => (w, .violation v)
    | .ok f => (w, .dump f.dump)
  | .compact =>
    match l.compact with
    | .error v => (w, .violation v)
    | .ok l' => (w.storeNewLog s.toLog l', .stored l')
  | .jointLog names => w.storeJoined s.toLog (jointLog (names.map w.log))
  | .jointInput names =>
    match jointInput (names.map w.input) with
    | .error err => (w, .joinError err)
    | .ok i' => (w, .input i')
  | .join branches =>
    match join (branches.map fun b => (w.log b.1, w.input b.2)) with
    | .error err => (w, .joinError err)
    | .ok (l', i') => ((w.storeNewLog s.toLog l').storeInput s.toInput i', .storedInput l' i')
  | .enter i' => (w.storeInput s.toInput i', .input i')
  | .move m =>
    match i.move? m with
    | none => (w, .notNext)
    | some i' => (w.storeInput s.toInput i', .input i')
  | .eat decoded raw =>
    match i.consume? raw with
    | none => (w, .notNext)
    | some i' =>
      let l' := l.append (.chunk ⟨decoded, raw⟩)
      ((store l' 1).storeInput s.toInput i', .storedInput l' i')

end Workspace

end ParseLog
