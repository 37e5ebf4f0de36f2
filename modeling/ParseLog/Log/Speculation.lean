import ParseLog.Input
import ParseLog.Log.Basic
/-!
# Speculation

Speculative work begins with a marker and ends in one of two ways. Rolling back drops everything
since the marker and gives its raw text back to the input. Committing keeps everything, and the
first event kept coalesces with what stood before the marker. A lookahead only rolls back.
-/

namespace ParseLog
set_option autoImplicit false

namespace Log

def mark (l : Log) (m : Marker) : Log := l.append (.marker m)

/-- The events since the most recent marker `m`, the most recent first; without one, all of them. -/
def since (l : Log) (m : Marker) : List Event :=
  l.recent.takeWhile (· ≠ .marker m)

/-- The log as it was when the most recent marker `m` was pushed. -/
def before? (l : Log) (m : Marker) : Option Log :=
  match l.recent.dropWhile (· ≠ .marker m) with
  | [] => none
  | _ :: older => some ⟨older⟩

def rollback (l : Log) (m : Marker) (input : Input) : Except Violation (Log × Input) :=
  match l.before? m with
  | none => .error (.noSuchMarker m)
  | some base => .ok (base, input.restore (rawText (l.since m).reverse))

/-- Adds events that once followed a marker; only the first may coalesce. -/
def graft (base : Log) : List Event → Log
  | [] => base
  | first :: later => (base.absorb first).appendAll later

/-- Puts the events kept above a marker, the most recent first, back on the log below it. The last of
them stood right after the marker: it goes into the head of the log if the two coalesce. -/
def putBack (rest : Log) (kept : List Event) : Log :=
  match rest.head?, kept.getLast? with
  | some before, some after =>
    match before.coalesce? after with
    | some merged => (rest.tail.append merged).appendAll kept.dropLast.reverse
    | none => rest.appendAll kept.reverse
  | _, _ => rest.appendAll kept.reverse

/-- Commits and folds `observe` over the events since the marker, the most recent first. -/
def commitFold {σ : Type} (l : Log) (m : Marker) (observe : σ → Event → σ) (start : σ) :
    σ × Except Violation Log :=
  if m = .lookahead then (start, .error .lookaheadKept)
  else
    ((l.since m).foldl observe start,
      match l.before? m with
      | none => .error (.noSuchMarker m)
      | some base => .ok (base.putBack (l.since m)))

def commit (l : Log) (m : Marker) : Except Violation Log :=
  (l.commitFold m (fun _ _ => ()) ()).2

/-- Commits one round of a loop and tells whether it consumed any input. -/
def commitRound (l : Log) : Except Violation (Log × Bool) :=
  let (consumed, result) := l.commitFold .loop (fun seen e => seen || e.raw ≠ "") false
  result.map (·, consumed)

/-- What is put back is grafted: only the first event may coalesce, and the order stays. -/
@[simp] theorem putBack_eq_graft (rest : Log) (kept : List Event) :
    rest.putBack kept = rest.graft kept.reverse := by
  rcases List.eq_nil_or_concat kept with rfl | ⟨later, first, rfl⟩
  · obtain rfl | ⟨older, last, rfl⟩ := rest.eq_empty_or_append <;> rfl
  · have hfirst : (later.concat first).getLast? = some first := by simp
    have hlater : (later.concat first).dropLast = later := by simp
    have hkept : (later.concat first).reverse = first :: later.reverse := by simp
    obtain rfl | ⟨older, last, rfl⟩ := rest.eq_empty_or_append
    · simp only [putBack, hkept]
      rfl
    · have hhead : (older.append last).head? = some last := rfl
      cases hm : last.coalesce? first with
      | none =>
        simp only [putBack, hhead, hfirst, hm, hkept, graft, absorb_append_of_none older hm]
        rfl
      | some merged =>
        simp only [putBack, hhead, hfirst, hm, hlater, hkept, graft, absorb_append older hm]
        rfl

theorem before?_isSome_iff {l : Log} {m : Marker} :
    (l.before? m).isSome = true ↔ Event.marker m ∈ l.recent := by
  obtain ⟨es⟩ := l
  induction es with
  | nil => simp [before?]
  | cons e es ih =>
    by_cases h : e = .marker m
    · simp [before?, h]
    · simpa [before?, h, Ne.symm h] using ih

end Log

end ParseLog
