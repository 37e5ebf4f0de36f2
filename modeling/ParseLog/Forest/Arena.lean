import ParseLog.Forest.Node
import ParseLog.Violation
/-!
# Forests in an arena

The nodes of a forest stand side by side in an arena and refer to each other by number. An event adds
a node at the end or closes the innermost open region where it stands. A node goes into one body only,
and the root into none.
-/

namespace ParseLog
set_option autoImplicit false

structure Cell where
  parent : Option Nat
  /-- The numbers of the nodes in the body, in order. -/
  body : Array Nat
  shape : Shape
  deriving DecidableEq

namespace Cell

/-- A node that is in no body yet. -/
def new (shape : Shape) : Cell := ⟨none, #[], shape⟩

def setParent (c : Cell) (parent : Nat) : Cell := { c with parent := some parent }

def addChild (c : Cell) (child : Nat) : Cell := { c with body := c.body.push child }

end Cell

structure Arena where
  cells : Array Cell
  /-- The numbers of the open regions, the innermost first. -/
  opened : List Nat
  deriving DecidableEq

namespace Arena

def start : Arena := ⟨#[.new .root], []⟩

/-- The node whose body the next node goes into. -/
def current (t : Arena) : Nat := t.opened.headD 0

def adopt (t : Arena) (parent child : Nat) : Except Violation Arena :=
  if child = 0 then .error .rootAdopted
  else if (t.cells[child]?.bind Cell.parent).isSome then .error (.adoptedTwice child)
  else
    let cells := t.cells.modify child (·.setParent parent)
    .ok { t with cells := cells.modify parent (·.addChild child) }

def push (t : Arena) (shape : Shape) : Except Violation Arena :=
  adopt { t with cells := t.cells.push (.new shape) } t.current t.cells.size

/-- Adds an open region to the current body, which its own body is from then on. -/
def enter (t : Arena) (b : Bracket) : Except Violation Arena :=
  (t.push (.region b none)).map fun t' => { t' with opened := t.cells.size :: t'.opened }

/-- Closes the current region, which has to be the one that `b` names. -/
def leave (t : Arena) (b : Bracket) : Except Violation Arena :=
  match t.cells[t.current]?.map Cell.shape with
  | some (.region left _) =>
    if left.pairsWith b then
      let cells := t.cells.modify t.current fun c => { c with shape := .region left (some b) }
      .ok ⟨cells, t.opened.tail⟩
    else .error (.strayRight b)
  | _ => .error (.strayRight b)

def step (t : Arena) : Event → Except Violation Arena
  | .bracket b =>
    match b.side with
    | .left => t.enter b
    | .right => t.leave b
  | e => t.push (.leaf e)

def run (t : Arena) (es : List Event) : Except Violation Arena := es.foldlM step t

/-- The nodes of the forest that the events stand for. -/
def ofEvents (es : List Event) : Except Violation (Array Cell) := (start.run es).map Arena.cells

end Arena

def Node.cell (n : Node) : Cell := ⟨n.parent, n.children.toArray, n.shape⟩

end ParseLog
