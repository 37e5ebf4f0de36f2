import Mathlib.Data.List.Induction
import ParseLog.Proofs.Forest.Arena
import ParseLog.Proofs.Forest.Grown
/-!
# Well-bracketed events

Events can be read with nothing but the open left brackets in mind. A right bracket is stray if it
does not belong to the innermost of them. Forests exist exactly for events without stray brackets,
they keep every event, and their open regions are the left brackets that remain.
-/

namespace ParseLog
set_option autoImplicit false

/-- Whether a right bracket belongs to the innermost of the open left brackets. -/
def Bracket.closes (b : Bracket) (opened : List Bracket) : Bool := opened.head?.any (·.pairsWith b)

def Bracket.isStray (b : Bracket) (opened : List Bracket) : Bool :=
  b.side = .right && !b.closes opened

/-- The open left brackets after an event, the innermost first. A stray bracket closes nothing. -/
def nest (opened : List Bracket) : Event → List Bracket
  | .bracket b =>
    match b.side with
    | .left => b :: opened
    | .right => if b.closes opened then opened.tail else opened
  | _ => opened

/-- The left brackets that are open after the events, the innermost first. -/
def openLefts (es : List Event) : List Bracket := es.foldl nest []

def WellBracketed (es : List Event) : Prop :=
  ∀ before b after, es = before ++ .bracket b :: after → b.isStray (openLefts before) = false

def FirstStray (es : List Event) (b : Bracket) : Prop :=
  ∃ before after, es = before ++ .bracket b :: after ∧ WellBracketed before ∧
    b.isStray (openLefts before) = true

theorem openLefts_concat (es : List Event) (e : Event) :
    openLefts (es ++ [e]) = nest (openLefts es) e := by
  simp [openLefts]

theorem wellBracketed_nil : WellBracketed [] := by
  intro before b after h
  simp at h

theorem wellBracketed_concat {es : List Event} {e : Event} :
    WellBracketed (es ++ [e]) ↔
      WellBracketed es ∧ ∀ b, e = .bracket b → b.isStray (openLefts es) = false := by
  constructor
  · intro h
    refine ⟨fun before b after hes => h before b (after ++ [e]) (by simp [hes]), ?_⟩
    rintro b rfl
    exact h es b [] rfl
  · rintro ⟨hes, he⟩ before b after hsplit
    rcases List.eq_nil_or_concat after with rfl | ⟨after, last, rfl⟩
    · obtain ⟨rfl, hb⟩ := List.append_inj' hsplit rfl
      exact he b (List.singleton_inj.mp hb)
    · rw [List.concat_eq_append, ← List.cons_append, ← List.append_assoc] at hsplit
      obtain ⟨hsplit, -⟩ := List.append_inj' hsplit rfl
      exact hes before b after hsplit

theorem wellBracketed_or_firstStray (es : List Event) :
    WellBracketed es ∨ ∃ b, FirstStray es b := by
  induction es using List.reverseRecOn with
  | nil => exact .inl wellBracketed_nil
  | append_singleton es e ih =>
    rcases ih with hes | ⟨b, before, after, rfl, hb⟩
    · by_cases he : ∃ b, e = .bracket b ∧ b.isStray (openLefts es) = true
      · obtain ⟨b, rfl, hb⟩ := he
        exact .inr ⟨b, es, [], rfl, hes, hb⟩
      · refine .inl (wellBracketed_concat.mpr ⟨hes, fun b hb => ?_⟩)
        exact Bool.eq_false_iff.mpr fun hstray => he ⟨b, hb, hstray⟩
    · exact .inr ⟨b, before, after ++ [e], by simp, hb⟩

namespace Growth

/-- The left brackets of the open regions, the innermost first. -/
def lefts (g : Growth) : List Bracket := g.opened.map OpenRegion.left

theorem step_stray {g : Growth} {b : Bracket} (h : b.isStray g.lefts = true) :
    g.step (.bracket b) = .error (.strayRight b) := by
  simp only [Bracket.isStray, Bool.and_eq_true, decide_eq_true_eq, Bool.not_eq_true'] at h
  obtain ⟨hside, hcloses⟩ := h
  simp only [step, hside, leave]
  cases hopened : g.opened with
  | nil => rfl
  | cons o outer =>
    have hpairs : ¬ o.left.pairsWith b = true := by
      simpa [Bracket.closes, lefts, hopened] using hcloses
    simp only
    rw [if_neg hpairs]

theorem step_nest {g : Growth} {e : Event}
    (h : ∀ b, e = .bracket b → b.isStray g.lefts = false) :
    ∃ g', g.step e = .ok g' ∧ g'.lefts = nest g.lefts e := by
  cases e with
  | bracket b =>
    cases hside : b.side with
    | left => exact ⟨g.enter b, by simp [step, hside], by simp [nest, hside, lefts, enter]⟩
    | right =>
      have hcloses : b.closes g.lefts = true := by simpa [Bracket.isStray, hside] using h b rfl
      cases hopened : g.opened with
      | nil => simp [Bracket.closes, lefts, hopened] at hcloses
      | cons o outer =>
        have hpairs : o.left.pairsWith b = true := by
          simpa [Bracket.closes, lefts, hopened] using hcloses
        refine ⟨⟨.region o.left g.recent.reverse (some b) o.earlier, outer⟩, ?_, ?_⟩
        · simp [step, hside, leave, hopened, hpairs]
        · simp [nest, hside, hcloses]
          simp [lefts, hopened]
  | chunk c => exact ⟨_, rfl, rfl⟩
  | value a => exact ⟨_, rfl, rfl⟩
  | marker m => exact ⟨_, rfl, rfl⟩

theorem step_of_not_bracket {e : Event} (h : e.isBracket = false) (g : Growth) :
    g.step e = .ok ⟨.leaf e g.recent, g.opened⟩ := by
  cases e <;> first | rfl | cases h

theorem run_append (g : Growth) (es fs : List Event) :
    g.run (es ++ fs) = (g.run es).bind (·.run fs) := List.foldlM_append

theorem run_singleton (g : Growth) (e : Event) : g.run [e] = g.step e := by
  simp only [run, List.foldlM_cons, List.foldlM_nil, bind_pure]

theorem run_of_wellBracketed {es : List Event} (h : WellBracketed es) :
    ∃ g, start.run es = .ok g ∧ g.lefts = openLefts es := by
  induction es using List.reverseRecOn with
  | nil => exact ⟨start, rfl, rfl⟩
  | append_singleton es e ih =>
    obtain ⟨hes, he⟩ := wellBracketed_concat.mp h
    obtain ⟨g, hg, hlefts⟩ := ih hes
    rw [← hlefts] at he
    obtain ⟨g', hg', hlefts'⟩ := step_nest he
    refine ⟨g', ?_, ?_⟩
    · rw [run_append, hg, Except.bind, run_singleton, hg']
    · rw [hlefts', hlefts, openLefts_concat]

theorem run_of_firstStray {es : List Event} {b : Bracket} (h : FirstStray es b) :
    start.run es = .error (.strayRight b) := by
  obtain ⟨before, after, rfl, hbefore, hb⟩ := h
  obtain ⟨g, hg, hlefts⟩ := run_of_wellBracketed hbefore
  rw [← hlefts] at hb
  rw [List.append_cons, run_append, run_append, hg]
  simp only [Except.bind, run_singleton, step_stray hb]

end Growth

/-- The left bracket of an open region. -/
def Node.openLeft? (n : Node) : Option Bracket :=
  match n.shape with
  | .region left none => some left
  | _ => none

namespace Forest

/-- The left brackets of the open regions, the outermost first. -/
def lefts : Forest → List Bracket
  | nil => []
  | leaf _ later => later.lefts
  | region left body right later =>
    (if right.isNone then [left] else []) ++ (body.lefts ++ later.lefts)

theorem filterMap_openLeft?_nodes (f : Forest) (parent : Nat) (siblings : List Nat)
    (outer : List Frame) (next : Nat) :
    (f.nodes parent siblings outer next).filterMap Node.openLeft? = f.lefts := by
  induction f generalizing parent siblings outer next with
  | nil => rfl
  | leaf e later ih =>
    rw [nodes, List.filterMap_cons_none rfl, ih, lefts]
  | region left body right later ihb ihl =>
    rw [nodes, lefts, ← ihb next (body.ids (next + 1)) (⟨left, right, later⟩ :: outer) (next + 1),
      ← ihl parent siblings outer (next + 1 + body.size)]
    cases right with
    | none =>
      rw [List.filterMap_cons_some (f := Node.openLeft?) rfl, List.filterMap_append]
      rfl
    | some b =>
      rw [List.filterMap_cons_none (f := Node.openLeft?) rfl, List.filterMap_append]
      rfl

theorem filterMap_openLeft? (f : Forest) : f.root.descendants.filterMap Node.openLeft? = f.lefts := by
  rw [Node.descendants, List.filterMap_cons_none rfl]
  exact filterMap_openLeft?_nodes f 0 f.root.children f.root.inner 1

theorem IsGrown.right_eq_other {f : Forest} (hf : f.IsGrown) {parent : Nat} {siblings : List Nat}
    {outer : List Frame} {next : Nat} {n : Node} (hn : n ∈ f.nodes parent siblings outer next)
    {left right : Bracket} (hshape : n.shape = .region left (some right)) : right = left.other := by
  induction f generalizing parent siblings outer next with
  | nil => cases hn
  | leaf e later ih =>
    cases hf with
    | leaf _ hlater =>
      rcases List.mem_cons.mp hn with rfl | hafter
      · cases hshape
      · exact ih hlater hafter
  | region left' body right' later ihb ihl =>
    rcases List.mem_cons.mp hn with rfl | hrest
    · cases hf <;> cases hshape
      rfl
    · rcases List.mem_append.mp hrest with hinside | hafter
      · cases hf with
        | region _ hbody _ => exact ihb hbody.isGrown hinside
        | opened _ hbody => exact ihb hbody hinside
      · cases hf with
        | region _ _ hlater => exact ihl hlater hafter
        | opened _ _ => cases hafter

theorem IsClosed.lefts_eq_nil {f : Forest} (h : f.IsClosed) : f.lefts = [] := by
  induction h with
  | nil => rfl
  | leaf _ _ ih => exact ih
  | region _ _ _ ihb ihl => simp [lefts, ihb, ihl]

theorem IsClosed.lefts_reverseOnto {f g : Forest} (h : g.IsClosed) :
    (Forest.reverseOnto f g).lefts = f.lefts := by
  induction h generalizing f with
  | nil => rfl
  | leaf _ _ ih => rw [Forest.reverseOnto, ih, lefts]
  | region _ hbody _ _ ih =>
    rw [Forest.reverseOnto, ih, lefts, hbody.lefts_eq_nil]
    rfl

end Forest

namespace Growth

theorem lefts_enclose {recent : Forest} {opened : List OpenRegion}
    (h : ∀ o ∈ opened, o.IsSound) : (enclose recent opened).lefts =
      (opened.map OpenRegion.left).reverse ++ recent.reverse.lefts := by
  induction opened generalizing recent with
  | nil => rfl
  | cons o outer ih =>
    obtain ⟨ho, houter⟩ := List.forall_mem_cons.mp h
    rw [enclose, ih houter, Forest.reverse, Forest.reverseOnto, ho.2.lefts_reverseOnto]
    simp [Forest.lefts]

theorem IsSound.lefts_forest {g : Growth} (h : g.IsSound) : g.forest.lefts = g.lefts.reverse := by
  rw [forest, lefts_enclose h.opened, h.recent.reverse.lefts_eq_nil, List.append_nil, lefts]

end Growth

namespace Log

theorem forest_of_wellBracketed {l : Log} (h : WellBracketed l.toList) :
    ∃ f, l.forest = .ok f ∧ f.lefts = (openLefts l.toList).reverse := by
  obtain ⟨g, hg, hlefts⟩ := Growth.run_of_wellBracketed h
  refine ⟨g.forest, ?_, ?_⟩
  · rw [forest, Forest.ofEvents, hg]
    rfl
  · rw [(Growth.isSound_start.run hg).lefts_forest, hlefts]

theorem forest_of_firstStray {l : Log} {b : Bracket} (h : FirstStray l.toList b) :
    l.forest = .error (.strayRight b) := by
  rw [forest, Forest.ofEvents, Growth.run_of_firstStray h]
  rfl

theorem wellBracketed_of_forest {l : Log} {f : Forest} (h : l.forest = .ok f) :
    WellBracketed l.toList := by
  rcases wellBracketed_or_firstStray l.toList with hwell | ⟨b, hstray⟩
  · exact hwell
  · cases h.symm.trans (forest_of_firstStray hstray)

theorem firstStray_of_forest {l : Log} {v : Violation} (h : l.forest = .error v) :
    ∃ b, FirstStray l.toList b ∧ v = .strayRight b := by
  rcases wellBracketed_or_firstStray l.toList with hwell | ⟨b, hstray⟩
  · obtain ⟨f, hf, -⟩ := forest_of_wellBracketed hwell
    cases h.symm.trans hf
  · exact ⟨b, hstray, Except.error.inj (h.symm.trans (forest_of_firstStray hstray))⟩

/-- Logs have forests exactly if they are well bracketed, and else the first stray bracket is at
fault. The nodes of the forest are those of the arena. They have all events in order, the brackets of
closed regions belong together, and the open regions are the left brackets that remain. -/
theorem forest_iff_wellBracketed (l : Log) :
    Arena.ofEvents l.toList =
        l.forest.map (fun f => (f.root.descendants.map Node.cell).toArray) ∧
      ((∃ f, l.forest = .ok f) ↔ WellBracketed l.toList) ∧
      (∀ v, l.forest = .error v ↔ ∃ b, FirstStray l.toList b ∧ v = .strayRight b) ∧
      ∀ f, l.forest = .ok f →
        f.root.events = l.toList ∧
        (∀ n ∈ f.root.descendants, ∀ left right, n.shape = .region left (some right) →
          left.pairsWith right = true) ∧
        f.root.descendants.filterMap Node.openLeft? = (openLefts l.toList).reverse := by
  refine ⟨Arena.ofEvents_eq l.toList, ⟨?_, ?_⟩, fun v => ⟨firstStray_of_forest, ?_⟩, ?_⟩
  · rintro ⟨f, hf⟩
    exact wellBracketed_of_forest hf
  · intro hwell
    obtain ⟨f, hf, -⟩ := forest_of_wellBracketed hwell
    exact ⟨f, hf⟩
  · rintro ⟨b, hstray, rfl⟩
    exact forest_of_firstStray hstray
  · intro f hf
    refine ⟨Forest.events_ofEvents hf, ?_, ?_⟩
    · intro n hn left right hshape
      rcases List.mem_cons.mp hn with rfl | hn
      · cases hshape
      · exact Bracket.pairsWith_iff.mpr ((Forest.isGrown_ofEvents hf).right_eq_other hn hshape)
    · obtain ⟨f', hf', hlefts⟩ := forest_of_wellBracketed (wellBracketed_of_forest hf)
      obtain rfl := Except.ok.inj (hf'.symm.trans hf)
      rw [Forest.filterMap_openLeft?, hlefts]

end Log

end ParseLog
