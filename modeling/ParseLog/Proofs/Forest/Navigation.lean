import ParseLog.Proofs.Forest.Walking
/-!
# Ways from a node

A node of a forest knows its body and its siblings, and the arena knows nodes by number only. The ways
from a node and the ways from its number in the arena lead to the same nodes.
-/

namespace ParseLog
set_option autoImplicit false

namespace Forest
variable {n : Node}

theorem map_id_nodes (f : Forest) (parent : Nat) (siblings : List Nat) (outer : List Frame)
    (next : Nat) : (f.nodes parent siblings outer next).map Node.id = List.range' next f.size := by
  induction f generalizing parent siblings outer next with
  | nil => rfl
  | leaf e later ih => rw [nodes, List.map_cons, ih, size, List.range'_succ]
  | region left body right later ihb ihl =>
    rw [nodes, List.map_cons, List.map_append, ihb, ihl, size, List.range'_succ,
      List.range'_append_1]

end Forest

theorem Node.map_id_descendants (n : Node) :
    n.descendants.map Node.id = List.range' n.id (n.body.size + 1) := by
  rw [descendants, List.map_cons, Forest.map_id_nodes, List.range'_succ]

namespace Arena

/-- Whether the arena has the node, with the body and the siblings that the node knows. -/
structure Has (cells : Array Cell) (n : Node) : Prop where
  hasBody : HasBody cells n.id n.body
  parent?_eq : parent? cells n.id = n.parent
  siblings_eq : n.siblings = (n.parent.map (children cells)).getD []

namespace Has
variable {cells : Array Cell} {f : Forest} {parent next : Nat} {siblings : List Nat}
  {outer : List Frame} {n : Node}

theorem of_mem_nodes (h : Holds cells parent next f) (hsiblings : siblings = children cells parent)
    (hn : n ∈ f.nodes parent siblings outer next) : Has cells n := by
  induction f generalizing parent siblings outer next with
  | nil => cases hn
  | leaf e later ih =>
    have hs := h.splits_leaf
    rcases List.mem_cons.mp hn with rfl | hn
    · exact ⟨hs.hasBody, hs.parent?_eq, hsiblings⟩
    · exact ih hs.holds hsiblings hn
  | region left inner right later ihi ihl =>
    have hs := h.splits_region
    rcases List.mem_cons.mp hn with rfl | hn
    · exact ⟨hs.hasBody, hs.parent?_eq, hsiblings⟩
    · rcases List.mem_append.mp hn with hn | hn
      · exact ihi hs.hasBody.holds hs.hasBody.children_eq.symm hn
      · exact ihl hs.holds hsiblings hn

theorem of_mem_descendants (hn : n ∈ f.root.descendants) : Has f.allCells.toArray n := by
  rcases List.mem_cons.mp hn with rfl | hn
  · exact ⟨f.hasBody_root, rfl, rfl⟩
  · exact of_mem_nodes f.hasBody_root.holds f.hasBody_root.children_eq.symm hn

variable (h : Has cells n)
include h

theorem children_eq : children cells n.id = n.children := h.hasBody.children_eq

theorem firstChild_eq : firstChild cells n.id = n.firstChild := congrArg List.head? h.children_eq

theorem lastChild_eq : lastChild cells n.id = n.lastChild := congrArg List.getLast? h.children_eq

theorem descendants_eq : descendants cells n.id = some (n.descendants.map Node.id) := by
  rw [n.map_id_descendants]
  exact h.hasBody.descendants_eq

/-- The node stands among its siblings once; only the root has none and no place among them. -/
theorem root_or_split (ht : IsTree cells) :
    (place? cells n.id = none ∧ n.siblings = []) ∨
      ∃ p earlier later, children cells p = earlier ++ n.id :: later ∧
        n.siblings = earlier ++ n.id :: later ∧ n.id ∉ earlier := by
  have hparent := h.parent?_eq
  have hsiblings := h.siblings_eq
  cases hp : n.parent with
  | none =>
    rw [hp] at hparent hsiblings
    exact .inl ⟨by rw [place?, hparent]; rfl, hsiblings⟩
  | some p =>
    rw [hp] at hparent hsiblings
    obtain ⟨earlier, later, hsplit⟩ := List.append_of_mem (ht.mem_iff.mpr hparent)
    have hnodup := ht.nodup p
    rw [hsplit] at hnodup
    refine .inr ⟨p, earlier, later, hsplit, hsiblings.trans hsplit, fun hmem => ?_⟩
    exact (List.nodup_append.mp hnodup).2.2 _ hmem _ List.mem_cons_self rfl

theorem laterSiblings_eq (ht : IsTree cells) : laterSiblings cells n.id = n.laterSiblings := by
  rw [Node.laterSiblings]
  rcases h.root_or_split ht with ⟨hplace, hnil⟩ | ⟨p, earlier, later, hsplit, hsiblings, hnot⟩
  · rw [laterSiblings, hplace, hnil]
    rfl
  · rw [ht.laterSiblings_of_split hsplit, hsiblings, List.dropWhile_append_of_pos]
    · simp
    · intro m hm
      simpa using ne_of_mem_of_not_mem hm hnot

theorem nextSibling_eq (ht : IsTree cells) : nextSibling cells n.id = n.nextSibling :=
  congrArg List.head? (h.laterSiblings_eq ht)

theorem prevSibling_eq (ht : IsTree cells) : prevSibling cells n.id = n.prevSibling := by
  rw [Node.prevSibling]
  rcases h.root_or_split ht with ⟨hplace, hnil⟩ | ⟨p, earlier, later, hsplit, hsiblings, hnot⟩
  · rw [prevSibling, hplace, hnil]
    rfl
  · rw [ht.prevSibling_of_split hsplit, hsiblings, List.takeWhile_append_of_pos]
    · simp
    · intro m hm
      simpa using ne_of_mem_of_not_mem hm hnot

end Has

end Arena

/-- From each node of a forest the same ways lead on as from its number in the arena. -/
theorem Forest.navigation_eq {f : Forest} {n : Node} (hn : n ∈ f.root.descendants) :
    Arena.parent? f.allCells.toArray n.id = n.parent ∧
      Arena.children f.allCells.toArray n.id = n.children ∧
      Arena.firstChild f.allCells.toArray n.id = n.firstChild ∧
      Arena.lastChild f.allCells.toArray n.id = n.lastChild ∧
      Arena.laterSiblings f.allCells.toArray n.id = n.laterSiblings ∧
      Arena.nextSibling f.allCells.toArray n.id = n.nextSibling ∧
      Arena.prevSibling f.allCells.toArray n.id = n.prevSibling ∧
      Arena.descendants f.allCells.toArray n.id = some (n.descendants.map Node.id) := by
  have h := Arena.Has.of_mem_descendants hn
  have ht := f.isTree_allCells
  exact ⟨h.parent?_eq, h.children_eq, h.firstChild_eq, h.lastChild_eq, h.laterSiblings_eq ht,
    h.nextSibling_eq ht, h.prevSibling_eq ht, h.descendants_eq⟩

end ParseLog
