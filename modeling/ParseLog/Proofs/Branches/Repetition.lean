import ParseLog.Proofs.Branches.Turn
/-!
# Branches that are listed again

A copy of a branch, listed anywhere after it, adds nothing to a join: the first chunk, the first value
and the first disagreement in front come before the copy, and intersecting with a set once more
changes nothing. The copy keeps in step with the branch, for a turn leaves equal branches equal.
-/

namespace ParseLog
set_option autoImplicit false

section Lists
variable {α β : Type} (before between after : List α) (x : α)

theorem findSome?_repeated (f : α → Option β) :
    (before ++ x :: (between ++ x :: after)).findSome? f =
      (before ++ x :: (between ++ after)).findSome? f := by
  rw [List.findSome?_append, List.findSome?_append, List.findSome?_cons, List.findSome?_cons]
  cases hx : f x with
  | some y => rfl
  | none => simp only [List.findSome?_append, List.findSome?_cons, hx]

theorem find?_repeated (p : α → Bool) :
    (before ++ x :: (between ++ x :: after)).find? p =
      (before ++ x :: (between ++ after)).find? p := by
  rw [← List.findSome?_guard, ← List.findSome?_guard]
  exact findSome?_repeated before between after x _

theorem mem_repeated {y : α} :
    y ∈ before ++ x :: (between ++ x :: after) ↔ y ∈ before ++ x :: (between ++ after) := by
  simp only [List.mem_append, List.mem_cons]
  tauto

end Lists

/-- What the values in front meet in depends on which events are in front, not on how often. -/
theorem Value.foldlM_meetFront_congr {a : Value} (ha : a.var.isMulti = true)
    {fronts fronts' : List (Option Event)} (h : ∀ front, front ∈ fronts ↔ front ∈ fronts') :
    fronts.foldlM Value.meetFront a = fronts'.foldlM Value.meetFront a := by
  obtain ⟨c, hc, hvar, hsymbols⟩ := foldlM_meetFront_spec ha fronts
  obtain ⟨c', hc', hvar', hsymbols'⟩ := foldlM_meetFront_spec ha fronts'
  have hsame : c = c' := by
    apply ext_symbols (hvar ▸ ha) (hvar.trans hvar'.symm)
    intro s
    rw [hsymbols, hsymbols']
    exact and_congr_right fun _ => forall_congr' fun front => by rw [h front]
  rw [hc, hc', hsame]

theorem Event.isMulti_of_findSome? {fronts : List (Option Event)} {a : Value}
    (h : fronts.findSome? (·.bind multiValue?) = some a) : a.var.isMulti = true := by
  obtain ⟨front, -, hfront⟩ := List.exists_of_findSome?_eq_some h
  obtain ⟨e, rfl, he⟩ := Option.bind_eq_some_iff.mp hfront
  cases e <;> simp only [multiValue?, reduceCtorEq] at he
  case value b =>
    split at he
    · rename_i hmulti
      obtain rfl := Option.some.inj he
      exact hmulti
    · cases he

theorem sharedFront_repeated (before between after : List (Option Event)) (front : Option Event) :
    sharedFront (before ++ front :: (between ++ front :: after)) =
      sharedFront (before ++ front :: (between ++ after)) := by
  cases before with
  | nil =>
    have hcopy : (between ++ front :: after).find? (· ≠ front) =
        (between ++ after).find? (· ≠ front) := by
      simp [List.find?_append]
    simp only [List.nil_append, sharedFront, hcopy]
  | cons first others =>
    simp only [List.cons_append, sharedFront, find?_repeated]

namespace Pending

/-- What a turn takes, and off which branches, told by the events in front. -/
def choice (fronts : List (Option Event)) : Except JoinError (Option (Event × (Event → Bool))) :=
  match fronts.findSome? (·.bind Event.chunk?) with
  | some e => .ok (some (e, Event.isChunk))
  | none =>
    match fronts.findSome? (·.bind Event.multiValue?) with
    | some first =>
      (JoinError.lift (fronts.foldlM Value.meetFront first)).map fun m =>
        some (.value m, (·.sets m.var))
    | none => (sharedFront fronts).map fun front => front.map fun e => (e, (· = e))

theorem step_eq_choice (p : Pending) :
    p.step = (choice p.fronts).map fun turn => turn.map fun t => (t.1, p.advance t.2) := by
  simp only [step, choice]
  cases p.fronts.findSome? (·.bind Event.chunk?) with
  | some e => rfl
  | none =>
    cases p.fronts.findSome? (·.bind Event.multiValue?) with
    | some first =>
      simp only
      cases p.fronts.foldlM Value.meetFront first <;> rfl
    | none =>
      simp only
      cases sharedFront p.fronts with
      | error err => rfl
      | ok front => cases front <;> rfl

theorem choice_repeated (before between after : List (Option Event)) (front : Option Event) :
    choice (before ++ front :: (between ++ front :: after)) =
      choice (before ++ front :: (between ++ after)) := by
  unfold choice
  rw [findSome?_repeated, findSome?_repeated, sharedFront_repeated]
  split
  · rfl
  · split
    · rename_i first hfirst
      rw [Value.foldlM_meetFront_congr (Event.isMulti_of_findSome? hfirst)
        fun _ => mem_repeated before between after front]
    · rfl

theorem choice_fronts_repeated (before between after : Pending) (es : List Event) :
    choice (fronts (before ++ es :: (between ++ es :: after))) =
      choice (fronts (before ++ es :: (between ++ after))) := by
  simp only [fronts, List.map_append, List.map_cons]
  exact choice_repeated _ _ _ _

theorem merge_eq_choice (p : Pending) :
    p.merge = (choice p.fronts).bind fun turn =>
      turn.elim (.ok []) fun t => (p.advance t.2).merge.map (t.1 :: ·) := by
  have hstep := step_eq_choice p
  rw [merge]
  rcases hchoice : choice p.fronts with err | _ | t
  all_goals
    rw [hchoice] at hstep
    rw [hstep]
    rfl

/-- By induction on the run: the copy loses in each turn what its original loses. -/
theorem merge_repeated (before between after : Pending) (es : List Event) :
    merge (before ++ es :: (between ++ es :: after)) =
      merge (before ++ es :: (between ++ after)) := by
  rw [merge_eq_choice, merge_eq_choice (before ++ es :: (between ++ after)), choice_fronts_repeated]
  rcases hchoice : choice (fronts (before ++ es :: (between ++ after))) with err | _ | ⟨e, taken⟩
  · rfl
  · rfl
  · have hturn : step (before ++ es :: (between ++ after)) =
        .ok (some (e, advance taken (before ++ es :: (between ++ after)))) := by
      rw [step_eq_choice, hchoice]
      rfl
    have hlt := total_lt_of_step hturn
    have hrest : merge (advance taken (before ++ es :: (between ++ es :: after))) =
        merge (advance taken (before ++ es :: (between ++ after))) := by
      simp only [advance, List.map_append, List.map_cons]
      exact merge_repeated _ _ _ _
    exact congrArg (Except.map (e :: ·)) hrest
termination_by total (before ++ es :: (between ++ after))
decreasing_by simpa only [advance, List.map_append, List.map_cons] using hlt

end Pending

/-- The compact logs of a list with a copy are those of the list without it, with a copy. -/
theorem mapM_compact_repeated (before between after : List Log) (l : Log) :
    ((∃ v, (before ++ l :: (between ++ after)).mapM Log.compact = .error v ∧
        (before ++ l :: (between ++ l :: after)).mapM Log.compact = .error v) ∨
      ∃ before' between' after' c,
        (before ++ l :: (between ++ after)).mapM Log.compact =
          .ok (before' ++ c :: (between' ++ after')) ∧
        (before ++ l :: (between ++ l :: after)).mapM Log.compact =
          .ok (before' ++ c :: (between' ++ c :: after'))) := by
  simp only [List.mapM_append, List.mapM_cons]
  cases before.mapM Log.compact with
  | error v => exact .inl ⟨v, rfl, rfl⟩
  | ok before' =>
    cases l.compact with
    | error v => exact .inl ⟨v, rfl, rfl⟩
    | ok c =>
      cases between.mapM Log.compact with
      | error v => exact .inl ⟨v, rfl, rfl⟩
      | ok between' =>
        cases after.mapM Log.compact with
        | error v => exact .inl ⟨v, rfl, rfl⟩
        | ok after' => exact .inr ⟨before', between', after', c, rfl, rfl⟩

theorem jointLog_repeated (before between after : List Log) (l : Log) :
    jointLog (before ++ l :: (between ++ l :: after)) =
      jointLog (before ++ l :: (between ++ after)) := by
  have hnonempty (before after : List Log) : (before ++ l :: after).isEmpty = false := by
    cases before <;> rfl
  simp only [jointLog, hnonempty, Bool.false_eq_true, if_false]
  obtain ⟨v, h, hcopy⟩ | ⟨before', between', after', c, h, hcopy⟩ :=
    mapM_compact_repeated before between after l
  · rw [h, hcopy]
  · rw [h, hcopy]
    simp only [JoinError.lift, Except.mapError, bind, Except.bind, List.map_append, List.map_cons,
      Pending.merge_repeated]

end ParseLog
