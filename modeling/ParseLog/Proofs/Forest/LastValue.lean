import ParseLog.Forest.Node
import ParseLog.Proofs.Forest.Outside
/-!
# The last value of a variable

The last value of a variable is the last node that sets it. It is buried if the innermost scope of
the variable around it is closed; if it is not, it stands outside all closed scopes.
-/

namespace ParseLog
set_option autoImplicit false

/-- The event of a node without brackets. -/
def Node.leaf? (n : Node) : Option Event :=
  match n.shape with
  | .leaf e => some e
  | _ => none

/-- Whether the node is a value of `v`. -/
def Node.sets (n : Node) (v : Variable) : Bool := n.leaf?.any (·.sets v)

theorem Node.sets_leaf {n : Node} {e : Event} (h : n.shape = .leaf e) (v : Variable) :
    n.sets v = e.sets v := by
  simp [sets, leaf?, h]

theorem Node.sets_region {n : Node} {left : Bracket} {right : Option Bracket}
    (h : n.shape = .region left right) (v : Variable) : n.sets v = false := by
  simp [sets, leaf?, h]

namespace Forest

/-- The last node, in the order of the log, that is a value of `v`. -/
def lastValue (f : Forest) (v : Variable) : Option Node :=
  (f.root.descendants.filter (·.sets v)).getLast?

/-- Whether the innermost scope of `v` around the last value of `v` is closed. -/
def Buries (f : Forest) (v : Variable) : Prop :=
  ∃ m scope, f.lastValue v = some m ∧ m.outer.find? (·.left.delimits v) = some scope ∧
    scope.right.isSome = true

/-- The regions around the last value of `v`, the innermost first. -/
def aroundLast (v : Variable) (outer : List Frame) : Forest → Option (List Frame)
  | nil => none
  | leaf e later => (aroundLast v outer later).or (if e.sets v then some outer else none)
  | region left body right later =>
    (aroundLast v outer later).or (aroundLast v (⟨left, right, later⟩ :: outer) body)

variable {v : Variable} {outer : List Frame}

theorem aroundLast_nodes (f : Forest) (parent : Nat) (siblings : List Nat) (outer : List Frame)
    (next : Nat) :
    (((f.nodes parent siblings outer next).filter (·.sets v)).getLast?).map Node.outer =
      f.aroundLast v outer := by
  induction f generalizing parent siblings outer next with
  | nil => rfl
  | leaf e later ih =>
    rw [nodes, aroundLast, ← ih parent siblings outer (next + 1), List.filter_cons,
      Node.sets_leaf rfl]
    by_cases he : e.sets v = true
    · rw [if_pos he, ← List.singleton_append, List.getLast?_append, Option.map_or, he]
      rfl
    · simp [he]
  | region left body right later ihb ihl =>
    rw [nodes, aroundLast, ← ihl parent siblings outer (next + 1 + body.size),
      ← ihb next (body.ids (next + 1)) (⟨left, right, later⟩ :: outer) (next + 1),
      List.filter_cons, Node.sets_region rfl, if_neg Bool.false_ne_true, List.filter_append,
      List.getLast?_append, Option.map_or]

theorem filter_descendants (f : Forest) (v : Variable) :
    f.root.descendants.filter (·.sets v) = (f.nodes 0 (f.ids 1) [] 1).filter (·.sets v) := by
  have hroot : f.root.sets v = false := rfl
  rw [Node.descendants, List.filter_cons, hroot, if_neg Bool.false_ne_true]
  rfl

theorem aroundLast_root (f : Forest) : (f.lastValue v).map Node.outer = f.aroundLast v [] := by
  rw [lastValue, filter_descendants, aroundLast_nodes]

/-- The values of `v` among the nodes are those among the events. -/
theorem leaves_nodes (f : Forest) (parent : Nat) (siblings : List Nat) (outer : List Frame)
    (next : Nat) :
    ((f.nodes parent siblings outer next).filter (·.sets v)).filterMap Node.leaf? =
      f.events.filter (·.sets v) := by
  induction f generalizing parent siblings outer next with
  | nil => rfl
  | leaf e later ih =>
    rw [nodes, events, List.filter_cons, List.filter_cons, Node.sets_leaf rfl,
      ← ih parent siblings outer (next + 1)]
    by_cases he : e.sets v = true <;> simp [Node.leaf?, he]
  | region left body right later ihb ihl =>
    have hright : (right.toList.map Event.bracket).filter (·.sets v) = [] := by
      cases right <;> rfl
    rw [nodes, events, List.filter_cons, Node.sets_region rfl, if_neg Bool.false_ne_true,
      List.filter_cons_of_neg (by simp [Event.sets]), List.filter_append, List.filterMap_append,
      ihb, ihl, List.filter_append, List.filter_append, hright, List.nil_append]

/-- The last value of `v` is the last event of the log that sets `v`. -/
theorem leaf?_lastValue {l : Log} {f : Forest} (hf : l.forest = .ok f) (v : Variable) :
    (f.lastValue v).bind Node.leaf? = (l.toList.filter (·.sets v)).getLast? := by
  have hnodes : (f.root.descendants.filter (·.sets v)).filterMap Node.leaf? =
      l.toList.filter (·.sets v) := by
    rw [filter_descendants, leaves_nodes, events_ofEvents hf]
  rw [← hnodes, lastValue, List.getLast?_filterMap, ← List.head?_reverse]
  cases hlast : (f.root.descendants.filter (·.sets v)).reverse with
  | nil => rfl
  | cons m earlier =>
    have hm : m ∈ f.root.descendants.filter (·.sets v) := by
      rw [← List.mem_reverse, hlast]
      exact List.mem_cons_self
    have hsets : m.leaf?.any (·.sets v) = true := (List.mem_filter.mp hm).2
    cases hleaf : m.leaf? with
    | none => simp [hleaf] at hsets
    | some e => simp [hleaf]

theorem aroundLast_isSome (f : Forest) (outer : List Frame) :
    (f.aroundLast v outer).isSome = f.sets v := by
  induction f generalizing outer with
  | nil => rfl
  | leaf e later ih =>
    rw [aroundLast, Option.isSome_or, ih, sets, Bool.or_comm]
    cases e.sets v <;> rfl
  | region left body right later ihb ihl =>
    rw [aroundLast, Option.isSome_or, ihl, ihb, sets, Bool.or_comm]

theorem aroundLast_eq_none_iff {f : Forest} : f.aroundLast v outer = none ↔ f.sets v = false := by
  rw [← aroundLast_isSome f outer, Option.isSome_eq_false_iff, Option.isNone_iff_eq_none]

theorem sets_of_aroundLast {f : Forest} {around : List Frame}
    (h : f.aroundLast v outer = some around) : f.sets v = true := by
  rw [← aroundLast_isSome f outer, h, Option.isSome_some]

section Nodes
variable {e : Event} {left : Bracket} {body later : Forest} {right : Option Bracket}
variable {around : List Frame}

theorem aroundLast_leaf_of_later (h : later.aroundLast v outer = some around) :
    (leaf e later).aroundLast v outer = some around := by
  rw [aroundLast, h, Option.some_or]

theorem aroundLast_region_of_later (h : later.aroundLast v outer = some around) :
    (region left body right later).aroundLast v outer = some around := by
  rw [aroundLast, h, Option.some_or]

theorem aroundLast_region_of_body (hlater : later.sets v = false)
    (h : body.aroundLast v (⟨left, right, later⟩ :: outer) = some around) :
    (region left body right later).aroundLast v outer = some around := by
  rw [aroundLast, aroundLast_eq_none_iff.mpr hlater, Option.none_or, h]

end Nodes

/-- What stands in a closed scope stays in it. -/
theorem scopeOpen_aroundLast {f : Forest} (hf : f.IsClosed) (houter : scopeOpen v outer = false)
    {around : List Frame} (h : f.aroundLast v outer = some around) :
    scopeOpen v around = false := by
  induction hf generalizing outer with
  | nil => cases h
  | @leaf e later _ _ ih =>
    rcases Option.or_eq_some_iff.mp h with h | ⟨-, h⟩
    · exact ih houter h
    · split at h <;> cases h
      exact houter
  | @region left body later _ _ _ ihb ihl =>
    rcases Option.or_eq_some_iff.mp h with h | ⟨-, h⟩
    · exact ihl houter h
    · exact ihb (by simp [scopeOpen, houter]) h

theorem exists_sets_outside {f : Forest} (hf : f.IsGrown) {around : List Frame}
    (h : f.aroundLast v outer = some around) (hopen : scopeOpen v around = true) :
    ∃ e ∈ f.outside (·.delimits v), e.sets v = true := by
  induction f generalizing outer with
  | nil => cases h
  | leaf e later ih =>
    cases hf with
    | leaf _ hlater =>
      rcases Option.or_eq_some_iff.mp h with h | ⟨-, h⟩
      · obtain ⟨x, hx, hsets⟩ := ih hlater h
        exact ⟨x, List.mem_cons_of_mem e hx, hsets⟩
      · split at h
        · rename_i he
          exact ⟨e, List.mem_cons_self, he⟩
        · cases h
  | region left body right later ihb ihl =>
    cases hf with
    | region _ hbody hlater =>
      rcases Option.or_eq_some_iff.mp h with h | ⟨-, h⟩
      · obtain ⟨x, hx, hsets⟩ := ihl hlater h
        exact ⟨x, List.mem_append_right _ hx, hsets⟩
      · by_cases hleft : left.delimits v = true
        · have hclosed := scopeOpen_aroundLast hbody (by simp [scopeOpen, hleft]) h
          cases hopen.symm.trans hclosed
        · obtain ⟨x, hx, hsets⟩ := ihb hbody.isGrown h
          refine ⟨x, ?_, hsets⟩
          rw [outside_region (by simpa using hleft)]
          exact List.mem_cons_of_mem _ (List.mem_append_left _ hx)
    | opened _ hbody =>
      rcases Option.or_eq_some_iff.mp h with h | ⟨-, h⟩
      · cases h
      · obtain ⟨x, hx, hsets⟩ := ihb hbody h
        refine ⟨x, ?_, hsets⟩
        rw [outside_opened]
        exact List.mem_cons_of_mem _ hx

end Forest

theorem scopeOpen_eq_false_iff {v : Variable} {outer : List Frame} :
    scopeOpen v outer = false ↔ ∃ scope, outer.find? (·.left.delimits v) = some scope ∧
      scope.right.isSome = true := by
  induction outer with
  | nil => simp [scopeOpen]
  | cons frame outer ih =>
    by_cases h : frame.left.delimits v = true
    · simp [scopeOpen, h]
    · simp [scopeOpen, h, ih]

theorem Forest.buries_iff {f : Forest} {v : Variable} :
    f.Buries v ↔ ∃ around, f.aroundLast v [] = some around ∧ scopeOpen v around = false := by
  rw [← aroundLast_root]
  constructor
  · rintro ⟨m, scope, hm, hscope⟩
    exact ⟨m.outer, by rw [hm]; rfl, scopeOpen_eq_false_iff.mpr ⟨scope, hscope⟩⟩
  · rintro ⟨around, haround, hclosed⟩
    obtain ⟨m, hm, rfl⟩ := Option.map_eq_some_iff.mp haround
    obtain ⟨scope, hscope⟩ := scopeOpen_eq_false_iff.mp hclosed
    exact ⟨m, scope, hm, hscope⟩

end ParseLog
