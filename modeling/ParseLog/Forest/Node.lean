import ParseLog.Forest.Liveness
/-!
# The nodes of a forest

Nodes are numbered from the root, which has number 0 and stands for the whole forest, in the order
in which their events begin. A node knows its place, so its parent, siblings and children can be told
by number.
-/

namespace ParseLog
set_option autoImplicit false

inductive Shape where
  | root
  | leaf (e : Event)
  | region (left : Bracket) (right : Option Bracket)
  deriving DecidableEq

structure Node where
  id : Nat
  shape : Shape
  body : Forest
  /-- The siblings after the node. -/
  later : Forest
  /-- The regions around the node, the innermost first. -/
  outer : List Frame
  parent : Option Nat
  /-- The numbers in the body of the parent, in order. -/
  siblings : List Nat

namespace Forest

/-- The numbers of the siblings, if the first has the number `next`. -/
def ids (next : Nat) : Forest → List Nat
  | nil => []
  | leaf _ later => next :: ids (next + 1) later
  | region _ body _ later => next :: ids (next + 1 + body.size) later

/-- The nodes of a body in order, each before the nodes in its own body. -/
def nodes (parent : Nat) (siblings : List Nat) (outer : List Frame) (next : Nat) :
    Forest → List Node
  | nil => []
  | leaf e later =>
    ⟨next, .leaf e, nil, later, outer, some parent, siblings⟩ ::
      nodes parent siblings outer (next + 1) later
  | region left body right later =>
    ⟨next, .region left right, body, later, outer, some parent, siblings⟩ ::
      (nodes next (body.ids (next + 1)) (⟨left, right, later⟩ :: outer) (next + 1) body ++
        nodes parent siblings outer (next + 1 + body.size) later)

def root (f : Forest) : Node := ⟨0, .root, f, nil, [], none, []⟩

end Forest

namespace Node

/-- The regions around the body of the node. -/
def inner (n : Node) : List Frame :=
  match n.shape with
  | .region left right => ⟨left, right, n.later⟩ :: n.outer
  | _ => n.outer

def children (n : Node) : List Nat := n.body.ids (n.id + 1)

/-- The node and everything in its body. -/
def descendants (n : Node) : List Node :=
  n :: n.body.nodes n.id n.children n.inner (n.id + 1)

def firstChild (n : Node) : Option Nat := n.children.head?

def lastChild (n : Node) : Option Nat := n.children.getLast?

/-- The siblings after the node, by number. -/
def laterSiblings (n : Node) : List Nat := (n.siblings.dropWhile (· ≠ n.id)).tail

def nextSibling (n : Node) : Option Nat := n.laterSiblings.head?

def prevSibling (n : Node) : Option Nat := (n.siblings.takeWhile (· ≠ n.id)).getLast?

def isOpen (n : Node) : Bool :=
  match n.shape with
  | .region _ none => true
  | _ => false

/-- The events that the node stands for. -/
def events (n : Node) : List Event :=
  match n.shape with
  | .root => n.body.events
  | .leaf e => [e]
  | .region left right => .bracket left :: (n.body.events ++ right.toList.map Event.bracket)

end Node

/-- The node with the number `id`. -/
def Forest.node? (f : Forest) (id : Nat) : Option Node := f.root.descendants[id]?

/-- Whether the event would have to be kept if it stood at the node; only a value may be dropped. -/
def Event.isRelevantAt (e : Event) (n : Node) : Bool :=
  match e with
  | .value a => scopeOpen a.var n.inner && !setLater a.var n.later n.outer
  | _ => true

/-- Whether the node's own event has to be kept. -/
def Node.isRelevant (n : Node) : Bool :=
  match n.shape with
  | .leaf e => e.isRelevantAt n
  | _ => true

end ParseLog
