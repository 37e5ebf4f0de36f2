import ParseLog.Forest.Arena
/-!
# Ways through an arena

In an arena a node is known by its number. Its place among its siblings is where its number stands in
the body of its parent. A walk keeps the numbers of the nodes that it has not visited yet, the next one
first, and puts the body of the node that it visits in front of them. Nothing in the definition of a
walk makes it end: a node could stand in its own body.
-/

namespace ParseLog
set_option autoImplicit false

/-- Whether a node of this shape is an open region. -/
def Shape.isOpen : Shape → Bool
  | .region _ none => true
  | _ => false

namespace Arena
variable (cells : Array Cell) (id : Nat)

def shape? : Option Shape := cells[id]?.map Cell.shape

/-- Whether the node is a region whose right bracket has not been recorded yet. -/
def isOpen : Bool := (shape? cells id).any Shape.isOpen

def parent? : Option Nat := cells[id]?.bind Cell.parent

def children : List Nat := (cells[id]?.map fun c => c.body.toList).getD []

/-- The body that the node is in, and its place there. -/
def place? : Option (List Nat × Nat) := do
  let siblings := children cells (← parent? cells id)
  let place ← siblings.findIdx? (· == id)
  return (siblings, place)

def firstChild : Option Nat := (children cells id).head?

def lastChild : Option Nat := (children cells id).getLast?

/-- The siblings after the node, in order. -/
def laterSiblings : List Nat :=
  match place? cells id with
  | some (siblings, place) => siblings.drop (place + 1)
  | none => []

def nextSibling : Option Nat := (laterSiblings cells id).head?

def prevSibling : Option Nat :=
  match place? cells id with
  | some (siblings, place + 1) => siblings[place]?
  | _ => none

/-- A walk under way. -/
structure Walk where
  visited : Array Nat
  /-- The nodes to visit, the next one first. -/
  pending : List Nat

/-- Visits the pending nodes in order, each with everything in it. -/
def Walk.run (w : Walk) : Option (Array Nat) :=
  match w.pending with
  | [] => some w.visited
  | id :: later => Walk.mk (w.visited.push id) (children cells id ++ later) |>.run
partial_fixpoint

/-- The node and everything in it, in the order of a walk; nothing if the walk does not end. -/
def descendants : Option (List Nat) := (Walk.run cells ⟨#[], [id]⟩).map Array.toList

end Arena

end ParseLog
