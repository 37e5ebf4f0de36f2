import ParseLog.Proofs.Log.Resolving
import ParseLog.Proofs.Log.Resuming
/-!
# Coalescing goes unnoticed

Events coalesce when one is absorbed and when speculation is committed. Searches for values, the text
and the brackets are the same without coalescing, and these tell all that can be seen of a log,
whatever follows it.
-/

namespace ParseLog
set_option autoImplicit false

theorem Growth.map_lefts_run_filter {g g' : Growth} (h : g.lefts = g'.lefts) (es : List Event) :
    (g.run es).map lefts = (g'.run (es.filter Event.isBracket)).map lefts := by
  induction es generalizing g g' with
  | nil => exact congrArg Except.ok h
  | cons e es ih =>
    by_cases he : e.isBracket = true
    · rw [List.filter_cons_of_pos he]
      simp only [run, List.foldlM_cons]
      rcases step_congr h e with ⟨k, k', hk, hk', hlefts⟩ | ⟨v, hv, hv'⟩
      · rw [hk, hk']
        exact ih hlefts
      · rw [hv, hv']
        rfl
    · rw [List.filter_cons_of_neg he]
      simp only [run, List.foldlM_cons, step_of_not_bracket (Bool.eq_false_iff.mpr he)]
      exact ih h

namespace Log

/-- Whether a log can be built, and the bracket at fault if not, is told by its brackets. -/
theorem forest_congr_of_brackets {l l' : Log}
    (h : l.toList.filter Event.isBracket = l'.toList.filter Event.isBracket) :
    ((∃ f, l.forest = .ok f) ↔ ∃ f, l'.forest = .ok f) ∧
      ∀ v, l.forest = .error v ↔ l'.forest = .error v := by
  have hlefts : (Growth.start.run l.toList).map Growth.lefts =
      (Growth.start.run l'.toList).map Growth.lefts := by
    rw [Growth.map_lefts_run_filter rfl, h, ← Growth.map_lefts_run_filter rfl]
  unfold forest Forest.ofEvents
  cases hrun : Growth.start.run l.toList with
  | ok g =>
    cases hrun' : Growth.start.run l'.toList with
    | ok g' => simp [Except.map]
    | error v' => rw [hrun, hrun'] at hlefts; cases hlefts
  | error v =>
    cases hrun' : Growth.start.run l'.toList with
    | ok g' => rw [hrun, hrun'] at hlefts; cases hlefts
    | error v' =>
      rw [hrun, hrun'] at hlefts
      obtain rfl := Except.error.inj hlefts
      simp [Except.map]

/-- Logs are interchangeable if no events that follow bring out a difference in what a variable
holds, in the text, or in whether the log can be built and which bracket is at fault. -/
structure Interchangeable (l l' : Log) : Prop where
  binding (es : List Event) (v : Variable) : (l.appendAll es).binding v = (l'.appendAll es).binding v
  decoded (es : List Event) :
    decodedText (l.appendAll es).toList = decodedText (l'.appendAll es).toList
  raw (es : List Event) : rawText (l.appendAll es).toList = rawText (l'.appendAll es).toList
  builds (es : List Event) :
    (∃ f, (l.appendAll es).forest = .ok f) ↔ ∃ f, (l'.appendAll es).forest = .ok f
  fails (es : List Event) (v : Violation) :
    (l.appendAll es).forest = .error v ↔ (l'.appendAll es).forest = .error v

theorem Interchangeable.of_parts {l l' : Log}
    (hlook : ∀ v depth, lookBack (·.delimits v) (·.sets v) depth l.recent =
      lookBack (·.delimits v) (·.sets v) depth l'.recent)
    (htext : transcript l.toList = transcript l'.toList)
    (hbrackets : l.toList.filter Event.isBracket = l'.toList.filter Event.isBracket) :
    l.Interchangeable l' := by
  have hbinding (es : List Event) (v : Variable) :
      (l.appendAll es).binding v = (l'.appendAll es).binding v := by
    have hfound : (l.appendAll es).findInScope (·.delimits v) (·.sets v) =
        (l'.appendAll es).findInScope (·.delimits v) (·.sets v) := by
      unfold findInScope
      rw [recent_appendAll, recent_appendAll]
      exact lookBack_append_congr es.reverse (hlook v) 0
    rw [Log.binding, hfound, Log.binding]
  have htexts (es : List Event) :
      transcript (l.appendAll es).toList = transcript (l'.appendAll es).toList := by
    rw [toList_appendAll, toList_appendAll, transcript_append, transcript_append, htext]
  have hbrackets' (es : List Event) : (l.appendAll es).toList.filter Event.isBracket =
      (l'.appendAll es).toList.filter Event.isBracket := by
    rw [toList_appendAll, toList_appendAll, List.filter_append, List.filter_append, hbrackets]
  exact ⟨hbinding, fun es => congrArg Chunk.decoded (htexts es),
    fun es => congrArg Chunk.raw (htexts es),
    fun es => (forest_congr_of_brackets (hbrackets' es)).1,
    fun es => (forest_congr_of_brackets (hbrackets' es)).2⟩

theorem interchangeable_absorb (l : Log) (e : Event) :
    (l.absorb e).Interchangeable (l.append e) := by
  apply Interchangeable.of_parts
  · intro v depth
    exact lookBack_absorb v l e depth
  · rw [transcript_absorb, toList_append, transcript_append, transcript_cons, transcript_nil,
      Chunk.append_blank]
  · rw [filter_isBracket_absorb, toList_append, List.filter_append]

theorem lookBack_graft (v : Variable) (base : Log) (es : List Event) (depth : Nat) :
    lookBack (·.delimits v) (·.sets v) depth (base.graft es).recent =
      lookBack (·.delimits v) (·.sets v) depth (base.appendAll es).recent := by
  cases es with
  | nil => rfl
  | cons first later =>
    have hfirst : (base.appendAll (first :: later)) = (base.append first).appendAll later := rfl
    rw [hfirst, graft, recent_appendAll, recent_appendAll]
    exact lookBack_append_congr later.reverse (lookBack_absorb v base first) depth

theorem filter_isBracket_graft (base : Log) (es : List Event) :
    (base.graft es).toList.filter Event.isBracket =
      (base.appendAll es).toList.filter Event.isBracket := by
  cases es with
  | nil => rfl
  | cons first later =>
    rw [graft, toList_appendAll, toList_appendAll, List.filter_append, filter_isBracket_absorb,
      List.append_assoc, ← List.filter_append, ← List.filter_append, List.singleton_append]

theorem interchangeable_commit {l l' : Log} {m : Marker} (h : l.commit m = .ok l') :
    l'.Interchangeable l := by
  have htext := transcript_commit h
  obtain ⟨-, base, hbase, rfl⟩ := commit_eq_ok_iff.mp h
  refine Interchangeable.of_parts ?_ htext ?_
  · intro v depth
    rw [lookBack_graft, recent_appendAll, List.reverse_reverse, recent_of_before? hbase]
    refine lookBack_append_congr (l.since m) (fun depth => ?_) depth
    rw [lookBack_passed rfl rfl]
  · rw [filter_isBracket_graft, toList_appendAll, toList_of_before? hbase, List.filter_append,
      List.filter_append, List.filter_cons_of_neg Bool.false_ne_true]

/-- Speculation that can be kept can be committed, and a log in which events have coalesced, by
committing or by absorbing an event, is interchangeable with the log in which they have not. -/
theorem coalesced_interchangeable :
    (∀ (l : Log) (m : Marker), .marker m ∈ l.recent → m ≠ .lookahead →
      ∃ l', l.commit m = .ok l' ∧ l'.Interchangeable l) ∧
    ∀ (l : Log) (e : Event), (l.absorb e).Interchangeable (l.append e) := by
  refine ⟨fun l m hmarked hkept => ?_, interchangeable_absorb⟩
  obtain ⟨base, hbase⟩ := Option.isSome_iff_exists.mp (before?_isSome_iff.mpr hmarked)
  have hcommit : l.commit m = .ok (base.graft (l.since m).reverse) :=
    commit_eq_ok_iff.mpr ⟨hkept, base, hbase, rfl⟩
  exact ⟨_, hcommit, interchangeable_commit hcommit⟩

end Log

/-! ### A value overwritten in speculation -/

namespace Overwritten

def theme : Variable := ⟨⟨"theme", by decide +kernel⟩, .single .text⟩

def value (s : String) : Value := .unchecked theme.name .text (.text s)

def scope : Bracket := ⟨.left, .scope theme⟩

def log : Log :=
  Log.ofList [.bracket scope, .value (value "light"), .marker .branch, .value (value "dark")]

def committed : Log := Log.ofList [.bracket scope, .value (value "dark")]

def following : List Event := [.chunk (.plain "x"), .bracket scope, .bracket scope.other]

end Overwritten

theorem Log.coalesced_interchangeable_branch :
    .marker .branch ∈ Overwritten.log.recent ∧
      Overwritten.log.commit .branch = .ok Overwritten.committed ∧
      (Overwritten.committed.appendAll Overwritten.following).binding Overwritten.theme =
        (Overwritten.log.appendAll Overwritten.following).binding Overwritten.theme ∧
      (Overwritten.log.appendAll Overwritten.following).binding Overwritten.theme =
        .ok (some (Overwritten.value "dark")) := by
  have hmarked : .marker .branch ∈ Overwritten.log.recent := by decide
  obtain ⟨l', hcommit, hsame⟩ :=
    Log.coalesced_interchangeable.1 Overwritten.log .branch hmarked (by decide)
  obtain rfl : l' = Overwritten.committed := Except.ok.inj (hcommit.symm.trans rfl)
  exact ⟨hmarked, hcommit, hsame.binding Overwritten.following Overwritten.theme, rfl⟩

end ParseLog
