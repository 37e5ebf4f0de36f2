import ParseLog.Proofs.Log.SingleValued
/-!
# Relevance and the rest of the log

Whether a value is relevant is found by a walk over the siblings after it and after the regions
around it, up to the innermost scope of its variable. The walk leaves out nothing that the rest of
the log shows: from an open scope on outwards every region is open, and so the last of its siblings.
-/

namespace ParseLog
set_option autoImplicit false

/-- The events from the end of the region's body to the end of the body around the region. -/
def Frame.after (f : Frame) : List Event := f.right.toList.map Event.bracket ++ f.later.events

/-- The events of the log after those of the node. -/
def Node.after (n : Node) : List Event := n.later.events ++ n.outer.flatMap Frame.after

/-- Whether a node starts with the event. -/
def Event.begins : Event → Bool
  | bracket b => b.side = .left
  | _ => true

theorem Event.begins_of_not_bracket {e : Event} (h : e.isBracket = false) : e.begins = true := by
  cases e <;> first | rfl | cases h

theorem Event.begins_bracket {b : Bracket} (h : b.side = .left) : (Event.bracket b).begins = true := by
  simp [begins, h]

theorem Event.begins_bracket_other {b : Bracket} (h : b.side = .left) :
    (Event.bracket b.other).begins = false := by
  simp [begins, side_other h]

/-- Whether the regions around a place have no siblings after them from an open one on outwards. -/
inductive OpenOutwards : List Frame → Prop where
  | nil : OpenOutwards []
  | closed {left right : Bracket} {later : Forest} {outer : List Frame} (rest : OpenOutwards outer) :
      OpenOutwards (⟨left, some right, later⟩ :: outer)
  | opened {left : Bracket} {outer : List Frame} (rest : ∀ f ∈ outer, f.after = []) :
      OpenOutwards (⟨left, none, .nil⟩ :: outer)

theorem openOutwards_of_after {outer : List Frame} (h : ∀ f ∈ outer, f.after = []) :
    OpenOutwards outer := by
  cases outer with
  | nil => exact .nil
  | cons f outer =>
    obtain ⟨hf, houter⟩ := List.forall_mem_cons.mp h
    obtain ⟨left, right, later⟩ := f
    obtain ⟨hright, hlater⟩ := List.append_eq_nil_iff.mp hf
    cases right with
    | some right => cases hright
    | none =>
      cases later with
      | nil => exact .opened houter
      | _ => cases hlater

namespace Forest

variable {f : Forest} {parent : Nat} {siblings : List Nat} {outer : List Frame} {next : Nat}
variable {n : Node}

theorem sets_eq_any (v : Variable) (f : Forest) : f.sets v = f.events.any (·.sets v) := by
  rw [Bool.eq_iff_iff, sets_iff, List.any_eq_true]

theorem IsClosed.openOutwards (hf : f.IsClosed) (houter : OpenOutwards outer)
    (hn : n ∈ f.nodes parent siblings outer next) : OpenOutwards n.outer := by
  induction hf generalizing parent siblings outer next with
  | nil => cases hn
  | leaf _ _ ih =>
    rcases List.mem_cons.mp hn with rfl | hn
    · exact houter
    · exact ih houter hn
  | region _ _ _ ihb ihl =>
    rcases List.mem_cons.mp hn with rfl | hn
    · exact houter
    · rcases List.mem_append.mp hn with hn | hn
      · exact ihb houter.closed hn
      · exact ihl houter hn

theorem IsGrown.openOutwards (hf : f.IsGrown) (houter : ∀ f ∈ outer, f.after = [])
    (hn : n ∈ f.nodes parent siblings outer next) : OpenOutwards n.outer := by
  have hopen : OpenOutwards outer := openOutwards_of_after houter
  induction hf generalizing parent siblings outer next with
  | nil => cases hn
  | leaf _ _ ih =>
    rcases List.mem_cons.mp hn with rfl | hn
    · exact hopen
    · exact ih houter hn hopen
  | region _ hbody _ ih =>
    rcases List.mem_cons.mp hn with rfl | hn
    · exact hopen
    · rcases List.mem_append.mp hn with hn | hn
      · exact hbody.openOutwards hopen.closed hn
      · exact ih houter hn hopen
  | opened _ _ ih =>
    rcases List.mem_cons.mp hn with rfl | hn
    · exact hopen
    · rcases List.mem_append.mp hn with hn | hn
      · exact ih (List.forall_mem_cons.mpr ⟨rfl, houter⟩) hn (.opened houter)
      · cases hn

theorem countP_begins (hf : f.IsGrown) : f.events.countP Event.begins = f.size := by
  induction f with
  | nil => rfl
  | leaf e later ih =>
    cases hf with
    | leaf hevent hlater =>
      rw [events, List.countP_cons, Event.begins_of_not_bracket hevent, ih hlater]
      rfl
  | region left body right later ihb ihl =>
    cases hf with
    | region hside hbody hlater =>
      simp only [events, size, Option.toList_some, List.map_cons, List.map_nil, List.countP_cons,
        List.countP_append, List.countP_nil, Event.begins_bracket hside,
        Event.begins_bracket_other hside, ihb hbody.isGrown, ihl hlater]
      simp
    | opened hside hbody =>
      simp [events, size, Event.begins_bracket hside, ihb hbody]

/-- A node has its place in the log, which the number of the node tells. -/
theorem events_eq_of_mem_nodes (hf : f.IsGrown) (hn : n ∈ f.nodes parent siblings outer next) :
    ∃ before, f.events ++ outer.flatMap Frame.after = before ++ (n.events ++ n.after) ∧
      n.id = next + before.countP Event.begins := by
  induction f generalizing parent siblings outer next with
  | nil => cases hn
  | leaf e later ih =>
    rcases List.mem_cons.mp hn with rfl | hn
    · exact ⟨[], by simp [events, Node.events, Node.after], rfl⟩
    · cases hf with
      | leaf hevent hlater =>
        obtain ⟨before, hbefore, hid⟩ := ih hlater hn
        refine ⟨e :: before, by simp [events, hbefore], ?_⟩
        rw [hid, List.countP_cons, Event.begins_of_not_bracket hevent, if_pos rfl]
        omega
  | region left body right later ihb ihl =>
    rcases List.mem_cons.mp hn with rfl | hn
    · exact ⟨[], by simp [events, Node.events, Node.after], rfl⟩
    have hside : left.side = .left := by cases hf <;> assumption
    have hgrown : body.IsGrown := by
      cases hf with
      | region _ hbody _ => exact hbody.isGrown
      | opened _ hbody => exact hbody
    rcases List.mem_append.mp hn with hbody | hlater
    · obtain ⟨before, hbefore, hid⟩ := ihb hgrown hbody
      rw [List.flatMap_cons, Frame.after] at hbefore
      refine ⟨.bracket left :: before, by simp [events, ← hbefore], ?_⟩
      rw [hid, List.countP_cons, Event.begins_bracket hside, if_pos rfl]
      omega
    · cases hf with
      | opened => cases hlater
      | region _ _ hrest =>
        obtain ⟨before, hbefore, hid⟩ := ihl hrest hlater
        refine ⟨.bracket left :: (body.events ++ .bracket left.other :: before),
          by simp [events, hbefore], ?_⟩
        simp only [hid, List.countP_cons, List.countP_append, Event.begins_bracket hside,
          Event.begins_bracket_other hside, countP_begins hgrown, if_true, Bool.false_eq_true,
          if_false]
        omega

end Forest

section Walk
variable {v : Variable} {outer : List Frame}

theorem setLater_of_after (h : ∀ f ∈ outer, f.after = []) (later : Forest) :
    setLater v later outer = later.sets v := by
  induction outer generalizing later with
  | nil => rfl
  | cons f outer ih =>
    obtain ⟨hf, houter⟩ := List.forall_mem_cons.mp h
    have hsets : f.later.sets v = false := by
      rw [Forest.sets_eq_any, (List.append_eq_nil_iff.mp hf).2]
      rfl
    rw [setLater, ih houter, hsets, Bool.and_false, Bool.or_false]

/-- In an open scope, or outside all scopes, the walk meets every later value. -/
theorem OpenOutwards.setLater_eq_any (h : OpenOutwards outer) (hscope : scopeOpen v outer = true)
    (later : Forest) :
    setLater v later outer = (later.events ++ outer.flatMap Frame.after).any (·.sets v) := by
  induction h generalizing later with
  | nil => simp [setLater, Forest.sets_eq_any]
  | @closed left right later' outer _ ih =>
    by_cases hleft : left.delimits v = true
    · simp [scopeOpen, hleft] at hscope
    · have hscope' : scopeOpen v outer = true := by simpa [scopeOpen, hleft] using hscope
      simp [setLater, hleft, ih hscope', Forest.sets_eq_any, Frame.after, Event.sets]
  | @opened left outer hrest =>
    have hafter : ∀ f ∈ (⟨left, none, .nil⟩ :: outer : List Frame), f.after = [] :=
      List.forall_mem_cons.mpr ⟨rfl, hrest⟩
    rw [setLater_of_after hafter, List.flatMap_eq_nil_iff.mpr hafter, List.append_nil,
      Forest.sets_eq_any]

theorem scopeOpen_iff : scopeOpen v outer = true ↔
    ∀ scope, outer.find? (·.left.delimits v) = some scope → scope.right = none := by
  rw [← Bool.not_eq_false, scopeOpen_eq_false_iff]
  simp

end Walk

theorem OpenOutwards.isRelevant_leaf {n : Node} {a : Value} (h : OpenOutwards n.outer)
    (hn : n.shape = .leaf (.value a)) : n.isRelevant = true ↔
      (∀ e ∈ n.after, e.sets a.var = false) ∧
        ∀ scope, n.outer.find? (·.left.delimits a.var) = some scope → scope.right = none := by
  have hrelevant : n.isRelevant =
      (scopeOpen a.var n.outer && !setLater a.var n.later n.outer) := by
    simp [Node.isRelevant, Event.isRelevantAt, Node.inner, hn]
  rw [hrelevant, ← scopeOpen_iff, and_comm (b := scopeOpen a.var n.outer = true), Bool.and_eq_true]
  refine and_congr_right fun hscope => ?_
  rw [h.setLater_eq_any hscope, Bool.not_eq_true', List.any_eq_false]
  simp only [Node.after, Bool.not_eq_true]

/-- A value is relevant if and only if the rest of the log does not set its variable and the
innermost scope of the variable around it, if there is one, is open. So a compact log has at most one
value of each variable. -/
theorem Log.isRelevant_iff {l : Log} {f : Forest} (hf : l.forest = .ok f) :
    (∀ n ∈ f.root.descendants, ∀ a, n.shape = .leaf (.value a) →
      (∃ before, l.toList = before ++ .value a :: n.after ∧
        n.id = before.countP Event.begins + 1) ∧
      (n.isRelevant = true ↔ (∀ e ∈ n.after, e.sets a.var = false) ∧
        ∀ scope, n.outer.find? (·.left.delimits a.var) = some scope → scope.right = none)) ∧
    ∃ c, l.compact = .ok c ∧ SingleValued c.toList := by
  have hgrown : f.IsGrown := Forest.isGrown_ofEvents hf
  constructor
  · intro n hn a hshape
    have hmem : n ∈ f.nodes 0 (f.ids 1) [] 1 := by
      rcases List.mem_cons.mp hn with rfl | hn
      · cases hshape
      · exact hn
    have houter : OpenOutwards n.outer := hgrown.openOutwards (by simp) hmem
    obtain ⟨before, hbefore, hid⟩ := Forest.events_eq_of_mem_nodes hgrown hmem
    refine ⟨⟨before, ?_, by omega⟩, houter.isRelevant_leaf hshape⟩
    rw [← Forest.events_ofEvents hf]
    simpa [Node.events, hshape] using hbefore
  · obtain ⟨c, hc⟩ : ∃ c, l.compact = .ok c := ⟨_, Log.compact_eq_ok_iff.mpr ⟨f, hf, rfl⟩⟩
    exact ⟨c, hc, Log.singleValued_compact hc⟩

/-! ### Values inside and after a closed region within an open scope -/

namespace Replaced

def tag : Bracket := ⟨.left, .boundary ⟨"tag", by decide +kernel⟩⟩

def log : Log :=
  Log.ofList [Shadowed.value 0, .bracket Shadowed.scope, Shadowed.value 1, .bracket tag,
    Shadowed.value 2, .bracket tag.other, .chunk (.plain "a")]

def forest : Forest :=
  .leaf (Shadowed.value 0) (.region Shadowed.scope (.leaf (Shadowed.value 1)
    (.region tag (.leaf (Shadowed.value 2) .nil) (some tag.other)
      (.leaf (.chunk (.plain "a")) .nil))) none .nil)

end Replaced

theorem Log.isRelevant_iff_replaced :
    Replaced.log.forest = .ok Replaced.forest ∧
      (∃ n, Replaced.forest.node? 3 = some n ∧ n.shape = .leaf (Shadowed.value 1) ∧
        n.isRelevant = false) ∧
      (∃ n, Replaced.forest.node? 5 = some n ∧ n.shape = .leaf (Shadowed.value 2) ∧
        n.isRelevant = true) ∧
      ∃ c, Replaced.log.compact = .ok c ∧ SingleValued c.toList := by
  have hforest : Replaced.log.forest = .ok Replaced.forest := rfl
  obtain ⟨hvalues, hcompact⟩ := Log.isRelevant_iff hforest
  refine ⟨hforest, ⟨_, rfl, rfl, ?_⟩, ⟨_, rfl, rfl, ?_⟩, hcompact⟩
  · obtain ⟨-, hrelevant⟩ := hvalues _ (List.mem_of_getElem? (i := 3) rfl) _ rfl
    apply Bool.eq_false_iff.mpr
    intro h
    exact absurd (hrelevant.mp h).1 (by decide)
  · obtain ⟨-, hrelevant⟩ := hvalues _ (List.mem_of_getElem? (i := 5) rfl) _ rfl
    exact hrelevant.mpr ⟨by decide, by decide⟩

end ParseLog
