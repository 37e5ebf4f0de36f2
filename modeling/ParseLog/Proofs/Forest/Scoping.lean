import Mathlib.Data.List.Induction
import ParseLog.Proofs.Forest.Survivors
/-!
# Scoped variables

A variable is scoped if its scopes do not nest and, when there are any, all its values lie in them.
Then a search ends at the same event in the forest and in what compaction keeps of it, and it finds
nothing before an open scope.
-/

namespace ParseLog
set_option autoImplicit false

def Node.isScope (n : Node) (v : Variable) : Bool :=
  match n.shape with
  | .region left _ => left.delimits v
  | _ => false

def Node.inScope (n : Node) (v : Variable) : Bool := n.outer.any (·.left.delimits v)

/-- Whether scopes of `v` do not nest, and there are none or all values of `v` lie in them. -/
structure Forest.IsScoped (f : Forest) (v : Variable) : Prop where
  apart : ∀ n ∈ f.root.descendants, n.isScope v = true → n.inScope v = false
  covered : (∀ n ∈ f.root.descendants, n.isScope v = false) ∨
    ∀ n ∈ f.root.descendants, n.sets v = true → n.inScope v = true

namespace Forest

/-- Whether no region is a scope of `v`. -/
def Unscoped (v : Variable) : Forest → Prop
  | nil => True
  | leaf _ later => later.Unscoped v
  | region left body _ later => left.delimits v = false ∧ body.Unscoped v ∧ later.Unscoped v

/-- Whether values of `v` lie in scopes only, and scopes do not nest. -/
def Covered (v : Variable) : Forest → Prop
  | nil => True
  | leaf e later => e.sets v = false ∧ later.Covered v
  | region left body _ later =>
    (left.delimits v = true → body.Unscoped v) ∧ (left.delimits v = false → body.Covered v) ∧
      later.Covered v

section Nodes
variable {v : Variable}

theorem outer_suffix_of_mem_nodes {f : Forest} {parent : Nat} {siblings : List Nat}
    {outer : List Frame} {next : Nat} {n : Node} (h : n ∈ f.nodes parent siblings outer next) :
    outer <:+ n.outer := by
  induction f generalizing parent siblings outer next with
  | nil => cases h
  | leaf e later ih =>
    rcases List.mem_cons.mp h with rfl | h
    · exact List.suffix_rfl
    · exact ih h
  | region left body right later ihb ihl =>
    rcases List.mem_cons.mp h with rfl | h
    · exact List.suffix_rfl
    · rcases List.mem_append.mp h with h | h
      · exact (List.suffix_cons _ _).trans (ihb h)
      · exact ihl h

theorem inScope_of_outer {outer : List Frame} {n : Node} (hn : outer <:+ n.outer)
    (h : outer.any (·.left.delimits v) = true) : n.inScope v = true := by
  obtain ⟨frame, hframe, hdelimits⟩ := List.any_eq_true.mp h
  exact List.any_eq_true.mpr ⟨frame, hn.subset hframe, hdelimits⟩

section
variable {f : Forest} {parent : Nat} {siblings : List Nat} {outer : List Frame} {next : Nat}

theorem unscoped_of_nodes
    (h : ∀ n ∈ f.nodes parent siblings outer next, n.isScope v = false) : f.Unscoped v := by
  induction f generalizing parent siblings outer next with
  | nil => trivial
  | leaf e later ih => exact ih (List.forall_mem_cons.mp h).2
  | region left body right later ihb ihl =>
    obtain ⟨hleft, hrest⟩ := List.forall_mem_cons.mp h
    obtain ⟨hbody, hlater⟩ := List.forall_mem_append.mp hrest
    exact ⟨hleft, ihb hbody, ihl hlater⟩

theorem covered_of_nodes (houter : outer.any (·.left.delimits v) = false)
    (hapart : ∀ n ∈ f.nodes parent siblings outer next, n.isScope v = true → n.inScope v = false)
    (hcovered : ∀ n ∈ f.nodes parent siblings outer next, n.sets v = true → n.inScope v = true) :
    f.Covered v := by
  induction f generalizing parent siblings outer next with
  | nil => trivial
  | leaf e later ih =>
    obtain ⟨-, hapart'⟩ := List.forall_mem_cons.mp hapart
    obtain ⟨he, hcovered'⟩ := List.forall_mem_cons.mp hcovered
    refine ⟨Bool.eq_false_iff.mpr fun hsets => ?_, ih houter hapart' hcovered'⟩
    cases houter.symm.trans (he hsets)
  | region left body right later ihb ihl =>
    obtain ⟨-, hapart'⟩ := List.forall_mem_cons.mp hapart
    obtain ⟨-, hcovered'⟩ := List.forall_mem_cons.mp hcovered
    obtain ⟨hapartb, hapartl⟩ := List.forall_mem_append.mp hapart'
    obtain ⟨hcoveredb, hcoveredl⟩ := List.forall_mem_append.mp hcovered'
    refine ⟨fun hleft => ?_, fun hleft => ?_, ihl houter hapartl hcoveredl⟩
    · have hnone : ∀ n ∈ body.nodes next (body.ids (next + 1)) (⟨left, right, later⟩ :: outer)
          (next + 1), n.isScope v = false := by
        intro n hn
        apply Bool.eq_false_iff.mpr
        intro hscope
        have hin : n.inScope v = true :=
          inScope_of_outer (outer_suffix_of_mem_nodes hn) (by simp [hleft])
        cases hin.symm.trans (hapartb n hn hscope)
      exact unscoped_of_nodes hnone
    · exact ihb (by simpa [hleft] using houter) hapartb hcoveredb

end

theorem IsScoped.cases {f : Forest} (h : f.IsScoped v) : f.Unscoped v ∨ f.Covered v := by
  have hnodes : ∀ n ∈ f.nodes 0 (f.ids 1) [] 1, n ∈ f.root.descendants :=
    fun n hn => List.mem_cons_of_mem _ hn
  rcases h.covered with hnone | hcovered
  · exact .inl (unscoped_of_nodes fun n hn => hnone n (hnodes n hn))
  · exact .inr (covered_of_nodes rfl (fun n hn => h.apart n (hnodes n hn))
      fun n hn => hcovered n (hnodes n hn))

end Nodes

end Forest

/-- Whether no value of `v` stands before a bracket of its scopes. -/
def ValuesLast (v : Variable) (es : List Event) : Prop :=
  es.Pairwise fun a b => a.sets v = true → b.scopeSide? (·.delimits v) = none

section ValuesLast
variable {v : Variable} {es fs : List Event}

theorem valuesLast_of_not_scope (h : ∀ e ∈ es, e.scopeSide? (·.delimits v) = none) :
    ValuesLast v es :=
  List.pairwise_of_forall_mem_list fun _ _ b hb _ => h b hb

theorem ValuesLast.cons {e : Event} (hes : ValuesLast v es) (he : e.sets v = false) :
    ValuesLast v (e :: es) := by
  refine List.pairwise_cons.mpr ⟨?_, hes⟩
  intro b _ hsets
  cases hsets.symm.trans he

theorem ValuesLast.prepend (hfs : ValuesLast v fs) (hes : ∀ e ∈ es, e.sets v = false) :
    ValuesLast v (es ++ fs) := by
  induction es with
  | nil => exact hfs
  | cons e es ih =>
    obtain ⟨he, hes'⟩ := List.forall_mem_cons.mp hes
    exact (ih hes').cons he

/-- Where no value stands before a scope, a search finds nothing outside the innermost one. -/
theorem ValuesLast.lookBack_succ (h : ValuesLast v es) (depth : Nat) :
    Log.lookBack (·.delimits v) (·.sets v) (depth + 1) es.reverse = none := by
  induction es using List.reverseRecOn generalizing depth with
  | nil => exact Log.lookBack_nil (depth + 1)
  | append_singleton es e ih =>
    obtain ⟨hes, -, hlast⟩ := List.pairwise_append.mp h
    rw [List.reverse_append, List.reverse_singleton, List.singleton_append]
    cases hside : e.scopeSide? (·.delimits v) with
    | none =>
      rw [Log.lookBack_inside hside]
      exact ih hes depth
    | some side =>
      cases side with
      | right =>
        rw [Log.lookBack_right hside]
        exact ih hes (depth + 1)
      | left =>
        -- Nothing older than a scope is a value.
        rw [Log.lookBack_left_succ hside]
        apply Log.lookBack_eq_none
        intro x hx
        apply Bool.eq_false_iff.mpr
        intro hsets
        cases hside.symm.trans (hlast x (List.mem_reverse.mp hx) e (List.mem_singleton_self e) hsets)

end ValuesLast

namespace Forest

theorem outside_region_append {delimits : Bracket → Bool} (left : Bracket) (body : Forest)
    (right : Option Bracket) (later : Forest) :
    (region left body right later).outside delimits =
      (region left body right nil).outside delimits ++ later.outside delimits := by
  simp [outside]

section Unscoped
variable {v : Variable} {outer : List Frame} {f : Forest}

theorem Unscoped.scopeSide?_outside (hf : f.IsGrown) (h : f.Unscoped v) :
    ∀ x ∈ f.outside (·.delimits v), x.scopeSide? (·.delimits v) = none := by
  induction f with
  | nil =>
    intro x hx
    cases hx
  | leaf e later ih =>
    cases hf with
    | leaf hevent hlater =>
      exact List.forall_mem_cons.mpr ⟨scopeSide?_of_not_bracket hevent, ih hlater h⟩
  | region left body right later ihb ihl =>
    obtain ⟨hleft, hbodyu, hlateru⟩ := h
    cases hf with
    | region _ hbody hlater =>
      rw [outside_region hleft, List.forall_mem_cons, List.forall_mem_append, List.forall_mem_cons]
      exact ⟨scopeSide?_of_not_delimits hleft, ihb hbody.isGrown hbodyu,
        scopeSide?_of_not_delimits hleft, ihl hlater hlateru⟩
    | opened _ hbody =>
      rw [outside_opened, List.forall_mem_cons]
      exact ⟨scopeSide?_of_not_delimits hleft, ihb hbody hbodyu⟩

theorem Unscoped.scopeSide?_keptBody (hf : f.IsGrown) (h : f.Unscoped v) :
    ∀ x ∈ keptBody outer f, x.scopeSide? (·.delimits v) = none := by
  induction f generalizing outer with
  | nil =>
    intro x hx
    cases hx
  | leaf e later ih =>
    cases hf with
    | leaf hevent hlater =>
      intro x hx
      rcases mem_keptBody_leaf hx with hx | ⟨rfl, -⟩
      · exact ih hlater h x hx
      · exact scopeSide?_of_not_bracket hevent
  | region left body right later ihb ihl =>
    obtain ⟨hleft, hbodyu, hlateru⟩ := h
    intro x hx
    cases hf with
    | region _ hbody hlater =>
      rcases mem_keptBody_region.mp hx with ⟨-, rfl⟩ | hx | hx
      · exact scopeSide?_of_not_delimits hleft
      · exact ihb hbody.isGrown hbodyu x hx
      · exact ihl hlater hlateru x hx
    | opened _ hbody =>
      rcases mem_keptBody_region.mp hx with ⟨-, rfl⟩ | hx | hx
      · exact scopeSide?_of_not_delimits hleft
      · exact ihb hbody hbodyu x hx
      · cases hx

theorem Unscoped.scopeOpen_aroundLast (h : f.Unscoped v) (houter : scopeOpen v outer = true)
    {around : List Frame} (haround : f.aroundLast v outer = some around) :
    scopeOpen v around = true := by
  induction f generalizing outer with
  | nil => cases haround
  | leaf e later ih =>
    rcases Option.or_eq_some_iff.mp haround with hlast | ⟨-, hlast⟩
    · exact ih h houter hlast
    · split at hlast <;> cases hlast
      exact houter
  | region left body right later ihb ihl =>
    obtain ⟨hleft, hbody, hlater⟩ := h
    rcases Option.or_eq_some_iff.mp haround with hlast | ⟨-, hlast⟩
    · exact ihl hlater houter hlast
    · exact ihb hbody (by simpa [scopeOpen, hleft] using houter) hlast

theorem Unscoped.lastStop_keptBody (hf : f.IsGrown) (h : f.Unscoped v)
    (hlive : isLive v nil outer = true) :
    lastStop (·.delimits v) (·.sets v) (keptBody outer f) =
      lastStop (·.delimits v) (·.sets v) (f.outside (·.delimits v)) := by
  -- Without scopes no value of `v` is buried.
  have houter : scopeOpen v outer = true := (Bool.and_eq_true_iff.mp hlive).1
  exact lastStop_keptBody_eq hf hlive fun _ haround => h.scopeOpen_aroundLast houter haround

end Unscoped

section Covered
variable {v : Variable} {outer : List Frame} {f : Forest}

theorem Covered.not_stops_outside (hf : f.IsClosed) (h : f.Covered v) :
    ∀ x ∈ f.outside (·.delimits v), x.stops (·.delimits v) (·.sets v) = false := by
  induction hf with
  | nil =>
    intro x hx
    cases hx
  | leaf hevent _ ih =>
    refine List.forall_mem_cons.mpr ⟨?_, ih h.2⟩
    simp [Event.stops, h.1, scopeSide?_of_not_bracket hevent]
  | @region left body later _ _ _ ihb ihl =>
    obtain ⟨-, hbody, hlater⟩ := h
    by_cases hleft : left.delimits v = true
    · rw [outside_scope hleft]
      exact ihl hlater
    · have hleft' : left.delimits v = false := by simpa using hleft
      rw [outside_region hleft', List.forall_mem_cons, List.forall_mem_append,
        List.forall_mem_cons, stops_bracket, stops_bracket]
      exact ⟨hleft', ihb (hbody hleft'), hleft', ihl hlater⟩

theorem not_stops_frame {left right : Bracket} {body later : Forest} (hbody : body.IsClosed)
    (hkept : left.delimits v = false → ∀ x ∈ keptBody (⟨left, some right, later⟩ :: outer) body,
      x.stops (·.delimits v) (·.sets v) = false) :
    ∀ x ∈ keptBody (⟨left, some right, later⟩ :: outer) body,
      x.stops (·.delimits v) (·.sets v) = false := by
  by_cases hleft : left.delimits v = true
  · intro x hx
    exact not_stops_of_dead hbody (isLive_frame_dead right (.inl hleft)) hx
  · exact hkept (by simpa using hleft)

theorem Covered.not_stops_keptBody (hf : f.IsClosed) (h : f.Covered v) :
    ∀ x ∈ keptBody outer f, x.stops (·.delimits v) (·.sets v) = false := by
  induction hf generalizing outer with
  | nil =>
    intro x hx
    cases hx
  | leaf hevent _ ih =>
    intro x hx
    rcases mem_keptBody_leaf hx with hx | ⟨rfl, -⟩
    · exact ih h.2 x hx
    · simp [Event.stops, h.1, scopeSide?_of_not_bracket hevent]
  | region _ hclosed _ ihb ihl =>
    obtain ⟨-, hbody, hlater⟩ := h
    intro x hx
    rcases mem_keptBody_region.mp hx with ⟨hopen, -⟩ | hx | hx
    · cases hopen
    · exact not_stops_frame hclosed (fun hleft => ihb (hbody hleft)) x hx
    · exact ihl hlater x hx

section Region
variable {left right : Bracket} {body later : Forest} (hbody : body.IsClosed)
variable (h : (region left body (some right) later).Covered v)
include hbody h

theorem Covered.not_stops_region (hside : left.side = .left) (hright : right = left.other) :
    ∀ x ∈ (region left body (some right) nil).outside (·.delimits v),
      x.stops (·.delimits v) (·.sets v) = false := by
  subst hright
  have hregion : (region left body (some left.other) nil).Covered v := ⟨h.1, h.2.1, trivial⟩
  exact hregion.not_stops_outside (.region hside hbody .nil)

variable (outer) in
theorem Covered.not_stops_inside : ∀ x ∈ keptBody (⟨left, some right, later⟩ :: outer) body,
    x.stops (·.delimits v) (·.sets v) = false :=
  not_stops_frame hbody fun hleft => (h.2.1 hleft).not_stops_keptBody hbody

end Region

/-- Closed regions do not matter to the value of `v`, and no other scope lies in an open one. -/
theorem Covered.lastStop_keptBody (hf : f.IsGrown) (h : f.Covered v) :
    lastStop (·.delimits v) (·.sets v) (keptBody outer f) =
      lastStop (·.delimits v) (·.sets v) (f.outside (·.delimits v)) := by
  induction f generalizing outer with
  | nil => rfl
  | leaf e later ih =>
    cases hf with
    | leaf hevent hlater =>
      rw [lastStop_keptBody_leaf hevent, ih hlater h.2, outside, lastStop_cons, Event.stops, h.1,
        scopeSide?_of_not_bracket hevent]
      rfl
  | region left body right later ihb ihl =>
    cases hf with
    | region hside hbody hlater =>
      have hinside := lastStop_eq_none_iff.mpr (h.not_stops_inside outer hbody)
      have houtside := lastStop_eq_none_iff.mpr (h.not_stops_region hbody hside rfl)
      rw [lastStop_keptBody_region hbody, ihl hlater h.2.2, hinside, outside_region_append,
        lastStop_append, houtside]
    | opened hside hbody =>
      obtain ⟨hscope, hbodyc, -⟩ := h
      have hinside : lastStop (·.delimits v) (·.sets v) (keptBody (⟨left, none, nil⟩ :: outer) body) =
          lastStop (·.delimits v) (·.sets v) (body.outside (·.delimits v)) := by
        by_cases hleft : left.delimits v = true
        · exact (hscope hleft).lastStop_keptBody hbody (by simp [isLive_frame, hleft])
        · exact ihb hbody (hbodyc (by simpa using hleft))
      rw [lastStop_keptBody_opened, hinside, outside_opened]
      exact (lastStop_append [.bracket left] _).symm

theorem Covered.isOf_liveValues (h : f.Covered v) : ∀ a ∈ liveValues outer f, a.isOf v = false := by
  induction f with
  | nil => simp [liveValues]
  | leaf e later ih =>
    obtain ⟨he, hlater⟩ := h
    cases e with
    | value a =>
      simp only [liveValues]
      split
      · exact List.forall_mem_cons.mpr ⟨he, ih hlater⟩
      · exact ih hlater
    | _ => exact ih hlater
  | region left body right later _ ihl => exact ihl h.2.2

theorem Covered.valuesLast_keptBody (h : f.Covered v) (hkept : ValuesLast v (keptEvents outer f)) :
    ValuesLast v (keptBody outer f) := by
  apply hkept.prepend
  intro x hx
  obtain ⟨a, ha, rfl⟩ := List.mem_map.mp hx
  exact h.isOf_liveValues a ((sortByName_perm _).mem_iff.mp ha)

theorem Covered.valuesLast_outside (hf : f.IsGrown) (h : f.Covered v) :
    ValuesLast v (f.outside (·.delimits v)) := by
  induction f with
  | nil => exact .nil
  | leaf e later ih =>
    cases hf with
    | leaf _ hlater => exact (ih hlater h.2).cons h.1
  | region left body right later ihb ihl =>
    cases hf with
    | region hside hbody hlater =>
      rw [outside_region_append]
      apply (ihl hlater h.2.2).prepend
      intro x hx
      exact (Bool.or_eq_false_iff.mp (h.not_stops_region hbody hside rfl x hx)).1
    | opened _ hbody =>
      obtain ⟨hscope, hbodyc, -⟩ := h
      rw [outside_opened]
      refine ValuesLast.cons ?_ rfl
      by_cases hleft : left.delimits v = true
      · exact valuesLast_of_not_scope ((hscope hleft).scopeSide?_outside hbody)
      · exact ihb hbody (hbodyc (by simpa using hleft))

theorem Covered.valuesLast_keptEvents (hf : f.IsGrown) (h : f.Covered v) :
    ValuesLast v (keptEvents outer f) := by
  induction f generalizing outer with
  | nil => exact .nil
  | leaf e later ih =>
    cases hf with
    | leaf _ hlater =>
      rw [keptEvents_leaf]
      split
      · exact ih hlater h.2
      · exact (ih hlater h.2).cons h.1
  | region left body right later ihb ihl =>
    cases hf with
    | region _ hbody hlater =>
      rw [keptEvents_closed]
      apply (ihl hlater h.2.2).prepend
      intro x hx
      exact (Bool.or_eq_false_iff.mp (h.not_stops_inside _ hbody x hx)).1
    | opened _ hbody =>
      obtain ⟨hscope, hbodyc, -⟩ := h
      rw [keptEvents_opened]
      refine ValuesLast.cons ?_ rfl
      by_cases hleft : left.delimits v = true
      · exact valuesLast_of_not_scope ((hscope hleft).scopeSide?_keptBody hbody)
      · have hbodyc' := hbodyc (by simpa using hleft)
        exact hbodyc'.valuesLast_keptBody (ihb hbody hbodyc')

end Covered

namespace IsScoped
variable {v : Variable} {f : Forest} (hf : f.IsGrown) (h : f.IsScoped v)
include hf h

theorem lastStop_keptBody :
    lastStop (·.delimits v) (·.sets v) (f.keptBody []) =
      lastStop (·.delimits v) (·.sets v) (f.outside (·.delimits v)) := by
  rcases h.cases with hunscoped | hcovered
  · exact hunscoped.lastStop_keptBody hf rfl
  · exact hcovered.lastStop_keptBody hf

theorem valuesLast_outside : ValuesLast v (f.outside (·.delimits v)) := by
  rcases h.cases with hunscoped | hcovered
  · exact valuesLast_of_not_scope (hunscoped.scopeSide?_outside hf)
  · exact hcovered.valuesLast_outside hf

theorem valuesLast_keptBody : ValuesLast v (f.keptBody []) := by
  rcases h.cases with hunscoped | hcovered
  · exact valuesLast_of_not_scope (hunscoped.scopeSide?_keptBody hf)
  · exact hcovered.valuesLast_keptBody (hcovered.valuesLast_keptEvents hf)

end IsScoped

end Forest

end ParseLog
