import ParseLog.Forest.Node
/-!
# Indented listings

A listing has a line for each event, indented by two spaces for each level. The sides of a region
stand at its own level and its body one level deeper.
-/

namespace ParseLog
set_option autoImplicit false

/-- The events in order, each with its level; the siblings stand at `level`. -/
def Forest.leveled (level : Nat) : Forest → List (Nat × Event)
  | nil => []
  | leaf e later => (level, e) :: later.leveled level
  | region left body right later =>
    (level, .bracket left) ::
      (body.leveled (level + 1) ++
        (right.toList.map (fun b => (level, Event.bracket b)) ++ later.leveled level))

def listingLine (lvl : Detail) (level : Nat) (e : Event) : String :=
  String.join (List.replicate level "  ") ++ e.render lvl ++ "\n"

def listing (lvl : Detail) (es : List (Nat × Event)) : String :=
  String.join (es.map fun e => listingLine lvl e.1 e.2)

/-- The node and its body; the node's own sides are not indented. -/
def Node.leveled (n : Node) : List (Nat × Event) :=
  match n.shape with
  | .root => n.body.leveled 1
  | .leaf e => [(0, e)]
  | .region left right =>
    (0, .bracket left) :: (n.body.leveled 1 ++ right.toList.map fun b => (0, .bracket b))

def Node.render (n : Node) (lvl : Detail) : String := listing lvl n.leveled

def Forest.render (f : Forest) (lvl : Detail) : String := f.root.render lvl

/-- The listing in diagnostics, at the level that tells most. -/
def Forest.dump (f : Forest) : String := f.render .long

instance : ToString Forest := ⟨fun f => f.render .long⟩

end ParseLog
