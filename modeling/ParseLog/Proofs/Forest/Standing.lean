import ParseLog.Proofs.Forest.Kept
import ParseLog.Proofs.Log.Transcript
/-!
# Events that stay in their order

Apart from values and the sides of closed regions, compaction keeps every event in its order. When
events coalesce, only chunks that meet are joined. The sides of closed regions are told by a stack: a
right bracket takes the innermost left bracket that is still there away with it.
-/

namespace ParseLog
set_option autoImplicit false

/-- What coalescing two neighbours preserves holds of a log that has absorbed the events. -/
theorem Log.absorbAll_induction {P : List Event → Prop}
    (chunks : ∀ before a b after, P (before ++ .chunk a :: .chunk b :: after) →
      P (before ++ .chunk (a ++ b) :: after))
    (values : ∀ before a b after, a.var = b.var → P (before ++ .value a :: .value b :: after) →
      P (before ++ .value b :: after))
    (l : Log) (es : List Event) (h : P (l.toList ++ es)) : P (l.absorbAll es).toList := by
  induction es generalizing l with
  | nil => simpa [absorbAll] using h
  | cons e es ih =>
    apply ih (l.absorb e)
    obtain ⟨-, habsorb⟩ | ⟨older, last, merged, rfl, hm, habsorb⟩ := absorb_cases l e
    · rw [habsorb, toList_append, List.append_assoc]
      exact h
    · rw [toList_append, List.append_assoc] at h
      rw [habsorb, toList_append, List.append_assoc]
      obtain ⟨c, d, rfl, rfl, rfl⟩ | ⟨a, b, rfl, rfl, hvar, rfl⟩ := Event.coalesce?_cases hm
      · exact chunks _ _ _ _ h
      · exact values _ _ _ _ hvar h

/-! ### Events other than values -/

def dropValues (es : List Event) : List Event := es.filter (!·.isValue)

@[simp] theorem dropValues_append (es fs : List Event) :
    dropValues (es ++ fs) = dropValues es ++ dropValues fs := List.filter_append _ _

theorem dropValues_values (values : List Value) : dropValues (values.map .value) = [] := by
  rw [dropValues, List.filter_map]
  simp [Event.isValue, Function.comp_def]

/-- Puts an event in front, a chunk as one with a chunk that comes next. -/
def joinFront (e : Event) (later : List Event) : List Event :=
  match e, later with
  | .chunk a, .chunk b :: rest => .chunk (a ++ b) :: rest
  | e, later => e :: later

/-- The events with adjacent chunks concatenated. -/
def joinChunks (es : List Event) : List Event := es.foldr joinFront []

theorem joinChunks_append_congr (before : List Event) {es fs : List Event}
    (h : joinChunks es = joinChunks fs) : joinChunks (before ++ es) = joinChunks (before ++ fs) := by
  unfold joinChunks at *
  rw [List.foldr_append, List.foldr_append, h]

theorem joinFront_append (a b : Chunk) (later : List Event) :
    joinFront (.chunk (a ++ b)) later = joinFront (.chunk a) (joinFront (.chunk b) later) := by
  cases later with
  | nil => rfl
  | cons e later =>
    cases e with
    | chunk c => exact congrArg (fun d => Event.chunk d :: later) (Chunk.append_assoc a b c)
    | _ => rfl

theorem joinChunks_absorbAll (es : List Event) :
    joinChunks (dropValues (Log.absorbAll ∅ es).toList) = joinChunks (dropValues es) := by
  apply Log.absorbAll_induction
    (P := fun fs => joinChunks (dropValues fs) = joinChunks (dropValues es))
  · intro before a b after h
    rw [← h, dropValues_append, dropValues_append]
    exact joinChunks_append_congr _ (joinFront_append a b _)
  · intro before a b after _ h
    rw [← h, dropValues_append, dropValues_append]
    rfl
  · rfl

/-- Adds an event to those before it, the most recent first. A right bracket is not added and removes
the most recent left bracket. -/
def settle (earlier : List Event) : Event → List Event
  | .bracket b =>
    match b.side with
    | .left => .bracket b :: earlier
    | .right => earlier.eraseP Event.isBracket
  | e => e :: earlier

/-- The events without the sides of closed regions. -/
def unpaired (es : List Event) : List Event := (es.foldl settle []).reverse

namespace Forest

/-- The events of the forest without the sides of closed regions. -/
def standing : Forest → List Event
  | nil => []
  | leaf e later => e :: later.standing
  | region left body right later =>
    (if right.isNone then [.bracket left] else []) ++ (body.standing ++ later.standing)

theorem settle_of_not_bracket {e : Event} (he : e.isBracket = false) (earlier : List Event) :
    settle earlier e = e :: earlier := by
  cases e <;> first | rfl | cases he

theorem IsClosed.not_bracket_standing {f : Forest} (hf : f.IsClosed) :
    ∀ x ∈ f.standing, x.isBracket = false := by
  induction hf with
  | nil => simp [standing]
  | leaf hevent _ ih => exact List.forall_mem_cons.mpr ⟨hevent, ih⟩
  | region _ _ _ ihb ihl =>
    have hinside := List.forall_mem_append.mpr ⟨ihb, ihl⟩
    exact hinside

theorem IsClosed.foldl_settle {f : Forest} (hf : f.IsClosed) (earlier : List Event) :
    f.events.foldl settle earlier = f.standing.reverse ++ earlier := by
  induction hf generalizing earlier with
  | nil => rfl
  | leaf hevent _ ih =>
    rw [events, List.foldl_cons, settle_of_not_bracket hevent, ih]
    simp [standing]
  | @region left body later hside hbody _ ihb ihl =>
    -- When the right bracket comes, nothing of the body stands in the way of its left bracket.
    have hinside : ∀ x ∈ body.standing.reverse, ¬ x.isBracket = true := by
      intro x hx
      simpa using hbody.not_bracket_standing x (List.mem_reverse.mp hx)
    have hright : settle (body.standing.reverse ++ .bracket left :: earlier) (.bracket left.other) =
        body.standing.reverse ++ earlier := by
      simp only [settle, side_other hside]
      rw [List.eraseP_append_right _ hinside, List.eraseP_cons_of_pos rfl]
    have hleft : settle earlier (.bracket left) = .bracket left :: earlier := by
      simp only [settle, hside]
    simp only [events, Option.toList_some, List.map_cons, List.map_nil, List.foldl_cons,
      List.foldl_append, List.foldl_nil, hleft, ihb, hright, ihl]
    simp [standing]

theorem IsGrown.foldl_settle {f : Forest} (hf : f.IsGrown) (earlier : List Event) :
    f.events.foldl settle earlier = f.standing.reverse ++ earlier := by
  induction hf generalizing earlier with
  | nil => rfl
  | leaf hevent _ ih =>
    rw [events, List.foldl_cons, settle_of_not_bracket hevent, ih]
    simp [standing]
  | @region left body later hside hbody _ ih =>
    have hregion := (IsClosed.region hside hbody .nil).foldl_settle earlier
    have hevents : (Forest.region left body (some left.other) later).events =
        (Forest.region left body (some left.other) .nil).events ++ later.events := by simp [events]
    rw [hevents, List.foldl_append, hregion, ih]
    simp [standing]
  | @opened left body hside _ ih =>
    have hleft : settle earlier (.bracket left) = .bracket left :: earlier := by
      simp only [settle, hside]
    simp [events, standing, hleft, ih]

theorem IsGrown.unpaired_events {f : Forest} (hf : f.IsGrown) : unpaired f.events = f.standing := by
  rw [unpaired, hf.foldl_settle, List.append_nil, List.reverse_reverse]

theorem dropValues_keptEvents (outer : List Frame) (f : Forest) :
    dropValues (keptEvents outer f) = dropValues f.standing := by
  induction f generalizing outer with
  | nil => rfl
  | leaf e later ih =>
    rw [keptEvents_leaf, standing, ← List.singleton_append (l := standing later), dropValues_append,
      ← ih outer]
    split
    · rename_i he
      simp [dropValues, he]
    · exact dropValues_append [e] _
  | region left body right later ihb ihl =>
    rw [keptEvents_region, standing]
    simp only [dropValues_append, dropValues_values, ihb, ihl, List.nil_append]

end Forest

end ParseLog
