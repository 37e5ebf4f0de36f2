import Mathlib.Data.List.Forall2
import ParseLog.Proofs.Forest.Bracketing
import ParseLog.Proofs.Forest.Kept
/-!
# Exchanging neighbours

It does not matter on which side of a chunk, a marker or a value of another name a value was
recorded. Forests that differ by such exchanges grow alike, and compaction keeps the same of them: it
takes the values away from everything else, and sorting brings those of different names into one
order.
-/

namespace ParseLog
set_option autoImplicit false

theorem insertByName_cons_of_le {a b : Value} (h : (compare a.var.name b.var.name).isLE = true)
    (l : List Value) : insertByName a (b :: l) = a :: b :: l := if_pos h

theorem insertByName_cons_of_not_le {a b : Value}
    (h : ¬ (compare a.var.name b.var.name).isLE = true) (l : List Value) :
    insertByName a (b :: l) = b :: insertByName a l := if_neg h

/-- Of values of different names exactly one comes first. -/
theorem Value.isLE_of_name_ne {a b : Value} (h : a.var.name ≠ b.var.name) :
    (compare a.var.name b.var.name).isLE = !(compare b.var.name a.var.name).isLE := by
  have hswap : compare b.var.name a.var.name = (compare a.var.name b.var.name).swap :=
    Std.OrientedCmp.eq_swap
  rw [hswap]
  cases hcompare : compare a.var.name b.var.name with
  | eq => exact absurd (Std.LawfulEqOrd.eq_of_compare hcompare) h
  | lt => rfl
  | gt => rfl

theorem insertByName_insertByName_of_le {a b : Value}
    (h : (compare a.var.name b.var.name).isLE = true)
    (h' : ¬ (compare b.var.name a.var.name).isLE = true) (l : List Value) :
    insertByName a (insertByName b l) = insertByName b (insertByName a l) := by
  induction l with
  | nil =>
    rw [insertByName, insertByName, insertByName_cons_of_le h, insertByName_cons_of_not_le h']
    rfl
  | cons c l ih =>
    by_cases hb : (compare b.var.name c.var.name).isLE = true
    · have ha : (compare a.var.name c.var.name).isLE = true := Std.TransCmp.isLE_trans h hb
      rw [insertByName_cons_of_le hb, insertByName_cons_of_le h, insertByName_cons_of_le ha,
        insertByName_cons_of_not_le h', insertByName_cons_of_le hb]
    · rw [insertByName_cons_of_not_le hb]
      by_cases ha : (compare a.var.name c.var.name).isLE = true
      · rw [insertByName_cons_of_le ha, insertByName_cons_of_le ha, insertByName_cons_of_not_le h',
          insertByName_cons_of_not_le hb]
      · rw [insertByName_cons_of_not_le ha, insertByName_cons_of_not_le ha,
          insertByName_cons_of_not_le hb, ih]

theorem insertByName_comm {a b : Value} (h : a.var.name ≠ b.var.name) (l : List Value) :
    insertByName a (insertByName b l) = insertByName b (insertByName a l) := by
  have hone := Value.isLE_of_name_ne h
  cases hba : (compare b.var.name a.var.name).isLE with
  | false => exact insertByName_insertByName_of_le (by simpa [hba] using hone) (by simp [hba]) l
  | true =>
    exact (insertByName_insertByName_of_le hba (by simpa [hba] using hone) l).symm

/-- Whether a value may be recorded on either side of the event. -/
def Event.isPassable (e : Event) (a : Value) : Bool :=
  match e with
  | .value b => b.var.name ≠ a.var.name
  | .bracket _ => false
  | _ => true

/-- Whether one of the events is a value for which the other is passable. -/
inductive Event.Exchangeable : Event → Event → Prop where
  | first {a : Value} {e : Event} (h : e.isPassable a = true) : Exchangeable (value a) e
  | second {a : Value} {e : Event} (h : e.isPassable a = true) : Exchangeable e (value a)

theorem Event.Exchangeable.symm {x y : Event} (h : x.Exchangeable y) : y.Exchangeable x := by
  cases h with
  | first h => exact .second h
  | second h => exact .first h

namespace Forest

/-- Whether the forests differ at most by exchanged neighbours. -/
inductive Exchanged : Forest → Forest → Prop where
  | nil : Exchanged nil nil
  | leaf (e : Event) {later later' : Forest} (rest : Exchanged later later') :
      Exchanged (leaf e later) (leaf e later')
  | region (left : Bracket) (right : Option Bracket) {body body' later later' : Forest}
      (inside : Exchanged body body') (rest : Exchanged later later') :
      Exchanged (region left body right later) (region left body' right later')
  | swap {x y : Event} (h : x.Exchangeable y) {later later' : Forest}
      (rest : Exchanged later later') :
      Exchanged (leaf x (leaf y later)) (leaf y (leaf x later'))

theorem Exchanged.refl (f : Forest) : f.Exchanged f := by
  induction f with
  | nil => exact .nil
  | leaf e _ ih => exact .leaf e ih
  | region left _ right _ ihb ihl => exact .region left right ihb ihl

theorem Exchanged.reverseOnto {f f' g g' : Forest} (hg : g.Exchanged g') (hf : f.Exchanged f') :
    (Forest.reverseOnto f g).Exchanged (Forest.reverseOnto f' g') := by
  induction hg generalizing f f' with
  | nil => exact hf
  | leaf e _ ih => exact ih (.leaf e hf)
  | region left right hbody _ _ ih => exact ih (.region left right hbody hf)
  | swap h _ ih => exact ih (.swap h.symm hf)

theorem Exchanged.reverse {f f' : Forest} (h : f.Exchanged f') : f.reverse.Exchanged f'.reverse :=
  h.reverseOnto .nil

theorem Exchanged.sets_eq {f f' : Forest} (h : f.Exchanged f') (v : Variable) :
    f.sets v = f'.sets v := by
  induction h with
  | nil => rfl
  | leaf e _ ih => rw [sets, ih, sets]
  | region left right _ _ ihb ihl => rw [sets, ihb, ihl, sets]
  | swap _ _ ih => rw [sets, sets, ih, sets, sets, Bool.or_left_comm]

end Forest

/-! ### Growing -/

/-- Whether the regions have the same left bracket and the siblings before them differ at most by
exchanged neighbours. -/
def OpenRegion.Exchanged (o o' : OpenRegion) : Prop :=
  o.left = o'.left ∧ o.earlier.Exchanged o'.earlier

namespace Growth

structure Exchanged (g g' : Growth) : Prop where
  recent : g.recent.Exchanged g'.recent
  opened : List.Forall₂ OpenRegion.Exchanged g.opened g'.opened

variable {g g' : Growth}

theorem Exchanged.refl (g : Growth) : g.Exchanged g :=
  ⟨.refl _, List.forall₂_same.mpr fun o _ => ⟨rfl, .refl o.earlier⟩⟩

theorem Exchanged.leaf (h : g.Exchanged g') (e : Event) :
    Exchanged ⟨.leaf e g.recent, g.opened⟩ ⟨.leaf e g'.recent, g'.opened⟩ :=
  ⟨.leaf e h.recent, h.opened⟩

theorem Exchanged.enter (h : g.Exchanged g') (b : Bracket) : (g.enter b).Exchanged (g'.enter b) :=
  ⟨.nil, .cons ⟨rfl, h.recent⟩ h.opened⟩

theorem Exchanged.leave (h : g.Exchanged g') (b : Bracket) :
    (∃ k k', g.leave b = .ok k ∧ g'.leave b = .ok k' ∧ k.Exchanged k') ∨
      ∃ v, g.leave b = .error v ∧ g'.leave b = .error v := by
  obtain ⟨recent, opened⟩ := g
  obtain ⟨recent', opened'⟩ := g'
  obtain ⟨hrecent, hopened⟩ := h
  simp only at hrecent hopened
  cases hopened with
  | nil => exact .inr ⟨_, rfl, rfl⟩
  | @cons o o' outer outer' ho houter =>
    obtain ⟨hleft, hearlier⟩ := ho
    simp only [Growth.leave, ← hleft]
    split
    · exact .inl ⟨_, _, rfl, rfl, .region _ _ hrecent.reverse hearlier, houter⟩
    · exact .inr ⟨_, rfl, rfl⟩

theorem Exchanged.step (h : g.Exchanged g') (e : Event) :
    (∃ k k', g.step e = .ok k ∧ g'.step e = .ok k' ∧ k.Exchanged k') ∨
      ∃ v, g.step e = .error v ∧ g'.step e = .error v := by
  cases e with
  | bracket b =>
    cases hside : b.side with
    | left =>
      simp only [Growth.step, hside]
      exact .inl ⟨_, _, rfl, rfl, h.enter b⟩
    | right =>
      simp only [Growth.step, hside]
      exact h.leave b
  | chunk c => exact .inl ⟨_, _, rfl, rfl, h.leaf _⟩
  | value a => exact .inl ⟨_, _, rfl, rfl, h.leaf _⟩
  | marker m => exact .inl ⟨_, _, rfl, rfl, h.leaf _⟩

theorem Exchanged.run (h : g.Exchanged g') (es : List Event) :
    (∃ k k', g.run es = .ok k ∧ g'.run es = .ok k' ∧ k.Exchanged k') ∨
      ∃ v, g.run es = .error v ∧ g'.run es = .error v := by
  induction es generalizing g g' with
  | nil => exact .inl ⟨g, g', rfl, rfl, h⟩
  | cons e es ih =>
    simp only [Growth.run, List.foldlM_cons]
    rcases h.step e with ⟨k, k', hk, hk', hsame⟩ | ⟨v, hv, hv'⟩
    · rw [hk, hk']
      exact ih hsame
    · rw [hv, hv']
      exact .inr ⟨v, rfl, rfl⟩

theorem exchanged_enclose {recent recent' : Forest} (h : recent.Exchanged recent')
    {opened opened' : List OpenRegion} (hopened : List.Forall₂ OpenRegion.Exchanged opened opened') :
    (enclose recent opened).Exchanged (enclose recent' opened') := by
  induction hopened generalizing recent recent' with
  | nil => exact h.reverse
  | cons ho _ ih =>
    obtain ⟨hleft, hearlier⟩ := ho
    rw [enclose, enclose, hleft]
    exact ih (.region _ none h.reverse hearlier)

theorem Exchanged.forest (h : g.Exchanged g') : g.forest.Exchanged g'.forest :=
  exchanged_enclose h.recent h.opened

end Growth

theorem Event.Exchangeable.not_bracket {x y : Event} (h : x.Exchangeable y) :
    x.isBracket = false ∧ y.isBracket = false := by
  have hpassable {a : Value} {e : Event} (h : e.isPassable a = true) : e.isBracket = false := by
    cases e <;> first | rfl | cases h
  cases h with
  | first h => exact ⟨rfl, hpassable h⟩
  | second h => exact ⟨hpassable h, rfl⟩

theorem Growth.exchanged_run {x y : Event} (h : x.Exchangeable y) (g : Growth) (es : List Event) :
    (∃ k k', g.run (x :: y :: es) = .ok k ∧ g.run (y :: x :: es) = .ok k' ∧ k.Exchanged k') ∨
      ∃ v, g.run (x :: y :: es) = .error v ∧ g.run (y :: x :: es) = .error v := by
  obtain ⟨hx, hy⟩ := h.not_bracket
  have hturned : Exchanged ⟨.leaf y (.leaf x g.recent), g.opened⟩
      ⟨.leaf x (.leaf y g.recent), g.opened⟩ :=
    ⟨.swap h.symm (.refl _), (Exchanged.refl g).opened⟩
  simp only [run, List.foldlM_cons, step_of_not_bracket hx, step_of_not_bracket hy]
  exact hturned.run es

/-! ### What is kept -/

namespace Forest

/-- The live values of a body in the order in which they are kept. -/
def sortedValues (outer : List Frame) (f : Forest) : List Value := sortByName (liveValues outer f)

section Kept
variable {outer outer' : List Frame} {a : Value} {e : Event} {f later : Forest}

theorem sortedValues_value (outer : List Frame) (a : Value) (later : Forest) :
    sortedValues outer (leaf (.value a) later) =
      if isLive a.var .nil outer && !later.sets a.var then insertByName a (sortedValues outer later)
      else sortedValues outer later := by
  rw [← isLive_eq]
  unfold sortedValues
  rw [liveValues]
  split <;> rfl

theorem sortedValues_other (outer : List Frame) (he : e.isValue = false) (later : Forest) :
    sortedValues outer (leaf e later) = sortedValues outer later := by
  cases e <;> first | rfl | cases he

theorem sortedValues_exchange (h : e.isPassable a = true) (outer : List Frame) (later : Forest) :
    sortedValues outer (leaf (.value a) (leaf e later)) =
      sortedValues outer (leaf e (leaf (.value a) later)) := by
  cases e with
  | bracket b => cases h
  | value b =>
    have hname : b.var.name ≠ a.var.name := by simpa [Event.isPassable] using h
    have hvar : b.var ≠ a.var := fun hvar => hname (congrArg Variable.name hvar)
    simp only [sortedValues_value, sets, Event.sets, Value.isOf, hvar, hvar.symm, decide_false,
      Bool.false_or]
    split <;> split
    · exact insertByName_comm hname.symm _
    all_goals rfl
  | chunk c =>
    rw [sortedValues_value, sortedValues_other _ rfl, sortedValues_other _ rfl, sortedValues_value]
    rfl
  | marker m =>
    rw [sortedValues_value, sortedValues_other _ rfl, sortedValues_other _ rfl, sortedValues_value]
    rfl

theorem sortedValues_swap {x y : Event} (h : x.Exchangeable y) (outer : List Frame)
    (later : Forest) :
    sortedValues outer (leaf x (leaf y later)) = sortedValues outer (leaf y (leaf x later)) := by
  cases h with
  | first h => exact sortedValues_exchange h outer later
  | second h => exact (sortedValues_exchange h outer later).symm

theorem keptEvents_swap {x y : Event} (h : x.Exchangeable y) (outer : List Frame)
    (later : Forest) :
    keptEvents outer (leaf x (leaf y later)) = keptEvents outer (leaf y (leaf x later)) := by
  cases h <;> rfl

section Congruence
-- The same values could be read at the end of both bodies.
variable (houter : ∀ v, isLive v .nil outer = isLive v .nil outer')
include houter

theorem sortedValues_leaf_congr {later' : Forest} (hsets : ∀ v, later.sets v = later'.sets v)
    (h : sortedValues outer later = sortedValues outer' later') (e : Event) :
    sortedValues outer (leaf e later) = sortedValues outer' (leaf e later') := by
  cases e with
  | value a => rw [sortedValues_value, houter, hsets, h, sortedValues_value]
  | _ => rwa [sortedValues_other _ rfl, sortedValues_other _ rfl]

theorem Exchanged.sortedValues_eq {f' : Forest} (h : f.Exchanged f') :
    sortedValues outer f = sortedValues outer' f' := by
  induction h with
  | nil => rfl
  | leaf e hlater ih => exact sortedValues_leaf_congr houter hlater.sets_eq ih e
  | region left right _ _ _ ih => exact ih
  | @swap x y h later later' hlater ih =>
    rw [sortedValues_swap h]
    exact sortedValues_leaf_congr houter (Exchanged.leaf x hlater).sets_eq
      (sortedValues_leaf_congr houter hlater.sets_eq ih x) y

theorem Exchanged.isLive_frame_eq {later' : Forest} (h : later.Exchanged later') (left : Bracket)
    (right : Option Bracket) (v : Variable) :
    isLive v .nil (⟨left, right, later⟩ :: outer) =
      isLive v .nil (⟨left, right, later'⟩ :: outer') := by
  rw [isLive_frame, isLive_frame, isLive_eq, isLive_eq v outer', houter, h.sets_eq]

end Congruence

/-- By induction on the relation, whatever regions with the same live values are around: an exchange
within a body moves the body's values past each other or out of what else is kept. -/
theorem Exchanged.keptEvents_eq {f' : Forest} (h : f.Exchanged f')
    (houter : ∀ v, isLive v .nil outer = isLive v .nil outer') :
    keptEvents outer f = keptEvents outer' f' := by
  induction h generalizing outer outer' with
  | nil => rfl
  | leaf e _ ih => rw [keptEvents_leaf, keptEvents_leaf, ih houter]
  | region left right hbody hlater ihb ihl =>
    have hinner := hlater.isLive_frame_eq houter left right
    have hvalues := hbody.sortedValues_eq hinner
    unfold sortedValues at hvalues
    rw [keptEvents_region, keptEvents_region, hvalues, ihb hinner, ihl houter]
  | swap h _ ih =>
    rw [keptEvents_swap h]
    simp only [keptEvents_leaf, ih houter]

end Kept

theorem Exchanged.compactEvents_eq {f f' : Forest} (h : f.Exchanged f') :
    f.compactEvents = f'.compactEvents := by
  have hvalues : sortedValues [] f = sortedValues [] f' := h.sortedValues_eq fun _ => rfl
  unfold sortedValues at hvalues
  rw [compactEvents, hvalues, h.keptEvents_eq fun _ => rfl, compactEvents]

end Forest

/-- Exchanged neighbours make no difference to compaction, wherever they stand. -/
theorem Log.compact_swap {x y : Event} (h : x.Exchangeable y) (before after : List Event) :
    (ofList (before ++ x :: y :: after)).compact = (ofList (before ++ y :: x :: after)).compact := by
  unfold compact forest Forest.ofEvents
  rw [toList_ofList, toList_ofList, Growth.run_append, Growth.run_append]
  cases Growth.start.run before with
  | error v => rfl
  | ok g =>
    simp only [Except.bind]
    rcases Growth.exchanged_run h g after with ⟨k, k', hk, hk', hsame⟩ | ⟨v, hv, hv'⟩
    · rw [hk, hk']
      simp only [Except.map, hsame.forest.compactEvents_eq]
    · rw [hv, hv']

/-- A log compacts alike, or fails alike, when a value was recorded on the other side of a
neighbouring chunk, marker or value of another name. -/
theorem Log.compact_exchange (before after : List Event) (a : Value) (e : Event)
    (h : e.isChunk = true ∨ e.isMarker = true ∨ ∃ b, e = .value b ∧ b.var.name ≠ a.var.name) :
    (ofList (before ++ .value a :: e :: after)).compact =
      (ofList (before ++ e :: .value a :: after)).compact := by
  have hpassable : e.isPassable a = true := by
    rcases h with h | h | ⟨b, rfl, hname⟩
    · cases e <;> first | rfl | cases h
    · cases e <;> first | rfl | cases h
    · simpa [Event.isPassable] using hname
  exact compact_swap (.first hpassable) before after

/-! ### A value recorded before or after the text of an entry -/

namespace Moved

def font : Value := .unchecked ⟨"font", by decide +kernel⟩ .text (.text "serif")

def size : Value := .unchecked ⟨"size", by decide +kernel⟩ .text (.text "12")

def entry : Bracket := ⟨.left, .boundary ⟨"entry", by decide +kernel⟩⟩

def before : List Event := [.bracket entry, .value size]

def text : Event := .chunk (.plain "x")

def after : List Event := [.bracket entry.other, .marker .loop]

def kept : List Event := [.value font, .value size, text, .marker .loop]

end Moved

theorem Log.compact_exchange_text :
    Moved.text.isChunk = true ∧
      (ofList (Moved.before ++ .value Moved.font :: Moved.text :: Moved.after)).compact =
        (ofList (Moved.before ++ Moved.text :: .value Moved.font :: Moved.after)).compact ∧
      (ofList (Moved.before ++ Moved.text :: .value Moved.font :: Moved.after)).compact =
        .ok (ofList Moved.kept) :=
  ⟨rfl, Log.compact_exchange Moved.before Moved.after Moved.font Moved.text (.inl rfl), rfl⟩

end ParseLog
