import ParseLog.Forest.Listing
import ParseLog.Log.Compaction
import ParseLog.Proofs.Log.Forgetting
/-!
# Forests without raw texts

A forest without raw texts grows from the log without them. It has the same listing and the same live
values, and compaction keeps the same places of it.
-/

namespace ParseLog
set_option autoImplicit false

namespace Forest

def forgetRaw : Forest → Forest
  | nil => nil
  | leaf e later => leaf e.forgetRaw later.forgetRaw
  | region left body right later => region left body.forgetRaw right later.forgetRaw

theorem forgetRaw_reverseOnto (f g : Forest) :
    (reverseOnto f g).forgetRaw = reverseOnto f.forgetRaw g.forgetRaw := by
  induction g generalizing f with
  | nil => rfl
  | leaf e later ih => exact ih (leaf e f)
  | region left body right later _ ih => exact ih (region left body right f)

theorem forgetRaw_reverse (f : Forest) : f.reverse.forgetRaw = f.forgetRaw.reverse :=
  forgetRaw_reverseOnto nil f

@[simp] theorem sets_forgetRaw (v : Variable) (f : Forest) : f.forgetRaw.sets v = f.sets v := by
  induction f with
  | nil => rfl
  | leaf e later ih => simp [forgetRaw, sets, ih]
  | region left body right later ihb ihl => simp [forgetRaw, sets, ihb, ihl]

end Forest

def OpenRegion.forgetRaw (o : OpenRegion) : OpenRegion := ⟨o.earlier.forgetRaw, o.left⟩

namespace Growth

def forgetRaw (g : Growth) : Growth := ⟨g.recent.forgetRaw, g.opened.map OpenRegion.forgetRaw⟩

theorem leave_forgetRaw (g : Growth) (b : Bracket) :
    g.forgetRaw.leave b = (g.leave b).map forgetRaw := by
  obtain ⟨recent, opened⟩ := g
  cases opened with
  | nil => rfl
  | cons o outer =>
    simp only [leave, forgetRaw, List.map_cons, OpenRegion.forgetRaw, ← Forest.forgetRaw_reverse]
    split <;> rfl

theorem step_forgetRaw (g : Growth) (e : Event) :
    g.forgetRaw.step e.forgetRaw = (g.step e).map forgetRaw := by
  cases e with
  | bracket b =>
    simp only [Event.forgetRaw, step]
    cases b.side with
    | left => rfl
    | right => exact leave_forgetRaw g b
  | _ => rfl

theorem run_forgetRaw (g : Growth) (es : List Event) :
    g.forgetRaw.run (es.map Event.forgetRaw) = (g.run es).map forgetRaw := by
  unfold run
  induction es generalizing g with
  | nil => rfl
  | cons e es ih =>
    rw [List.map_cons, List.foldlM_cons, List.foldlM_cons, step_forgetRaw]
    cases g.step e with
    | error v => rfl
    | ok g' => exact ih g'

theorem forgetRaw_enclose (recent : Forest) (opened : List OpenRegion) :
    (enclose recent opened).forgetRaw =
      enclose recent.forgetRaw (opened.map OpenRegion.forgetRaw) := by
  induction opened generalizing recent with
  | nil => exact Forest.forgetRaw_reverse recent
  | cons o outer ih =>
    rw [enclose, ih, Forest.forgetRaw, Forest.forgetRaw_reverse]
    rfl

end Growth

theorem Log.forest_forgetRaw (l : Log) : l.forgetRaw.forest = l.forest.map Forest.forgetRaw := by
  unfold forest Forest.ofEvents
  rw [toList_forgetRaw]
  have hrun := Growth.run_forgetRaw Growth.start l.toList
  have hstart : Growth.start.forgetRaw = Growth.start := rfl
  rw [hstart] at hrun
  rw [hrun]
  cases Growth.start.run l.toList with
  | error v => rfl
  | ok g => exact congrArg Except.ok (Growth.forgetRaw_enclose g.recent g.opened).symm

namespace Forest

theorem leveled_forgetRaw (level : Nat) (f : Forest) :
    f.forgetRaw.leveled level = (f.leveled level).map fun e => (e.1, e.2.forgetRaw) := by
  induction f generalizing level with
  | nil => rfl
  | leaf e later ih => simp [forgetRaw, leveled, ih]
  | region left body right later ihb ihl =>
    cases right <;> simp [forgetRaw, leveled, ihb, ihl, Event.forgetRaw]

/-- A listing shows no raw text. -/
theorem render_forgetRaw (f : Forest) (lvl : Detail) : f.forgetRaw.render lvl = f.render lvl := by
  have hleveled : ∀ g : Forest, g.root.leveled = g.leveled 1 := fun _ => rfl
  rw [render, render, Node.render, Node.render, hleveled, hleveled, leveled_forgetRaw, listing,
    listing, List.map_map]
  simp [Function.comp_def, listingLine]

end Forest

def Frame.forgetRaw (frame : Frame) : Frame := { frame with later := frame.later.forgetRaw }

section Liveness
variable (v : Variable) (outer : List Frame)

theorem scopeOpen_forgetRaw : scopeOpen v (outer.map Frame.forgetRaw) = scopeOpen v outer := by
  induction outer with
  | nil => rfl
  | cons frame outer ih => simp [scopeOpen, Frame.forgetRaw, ih]

theorem setLater_forgetRaw (later : Forest) :
    setLater v later.forgetRaw (outer.map Frame.forgetRaw) = setLater v later outer := by
  induction outer generalizing later with
  | nil => exact later.sets_forgetRaw v
  | cons frame outer ih => simp [setLater, Frame.forgetRaw, ih]

theorem isLive_forgetRaw (later : Forest) :
    isLive v later.forgetRaw (outer.map Frame.forgetRaw) = isLive v later outer := by
  rw [isLive, scopeOpen_forgetRaw, setLater_forgetRaw]
  rfl

end Liveness

namespace Forest

theorem liveValues_forgetRaw (outer : List Frame) (f : Forest) :
    liveValues (outer.map Frame.forgetRaw) f.forgetRaw = liveValues outer f := by
  induction f with
  | nil => rfl
  | leaf e later ih =>
    cases e with
    | value a => simp only [forgetRaw, Event.forgetRaw, liveValues, isLive_forgetRaw, ih]
    | _ => exact ih
  | region left body right later _ ih => exact ih

theorem map_forgetRaw_values (values : List Value) :
    (values.map Event.value).map Event.forgetRaw = values.map .value := by
  simp [Event.forgetRaw]

theorem keptEvents_forgetRaw (outer : List Frame) (f : Forest) :
    keptEvents (outer.map Frame.forgetRaw) f.forgetRaw =
      (keptEvents outer f).map Event.forgetRaw := by
  induction f generalizing outer with
  | nil => rfl
  | leaf e later ih =>
    rw [forgetRaw, keptEvents_leaf, keptEvents_leaf, Event.isValue_forgetRaw, ih]
    split <;> rfl
  | region left body right later ihb ihl =>
    have hvalues := liveValues_forgetRaw (⟨left, right, later⟩ :: outer) body
    have hkept := ihb (⟨left, right, later⟩ :: outer)
    rw [List.map_cons, Frame.forgetRaw] at hvalues hkept
    rw [forgetRaw, keptEvents_region, keptEvents_region, hvalues, hkept, ihl]
    simp only [List.map_append, map_forgetRaw_values]
    cases right <;> rfl

theorem compactEvents_forgetRaw (f : Forest) :
    f.forgetRaw.compactEvents = f.compactEvents.map Event.forgetRaw := by
  have hvalues := liveValues_forgetRaw [] f
  have hkept := keptEvents_forgetRaw [] f
  rw [List.map_nil] at hvalues hkept
  rw [compactEvents, compactEvents, hvalues, hkept, List.map_append, map_forgetRaw_values]

end Forest

theorem Log.compact_forgetRaw (l : Log) : l.forgetRaw.compact = l.compact.map Log.forgetRaw := by
  rw [compact, compact, forest_forgetRaw]
  cases l.forest with
  | error v => rfl
  | ok f =>
    apply congrArg Except.ok
    rw [forgetRaw_absorbAll, ← Forest.compactEvents_forgetRaw]
    rfl

end ParseLog
