import ParseLog.Encoding
import ParseLog.Variable.Basic
/-!
# Brackets

A region of the parse stands between two brackets that name it alike. Two brackets belong together
when they are on opposite sides of one region.
-/

namespace ParseLog
set_option autoImplicit false

inductive Side where
  | left
  | right
  deriving DecidableEq

def Side.opposite : Side → Side
  | left => right
  | right => left

inductive Region where
  /-- The span that a production matched. -/
  | boundary (name : DottedName)
  /-- The extent over which a variable has a value. -/
  | scope (v : Variable)
  /-- A text of another language, in encoded form. -/
  | embed (encoding : Encoding)
  /-- A span that must not itself start a match of the pattern. -/
  | limit (pattern : String)
  deriving DecidableEq

structure Bracket where
  side : Side
  region : Region
  deriving DecidableEq

namespace Bracket

/-- Whether the brackets have opposite sides and the same region. -/
def pairsWith (a b : Bracket) : Bool :=
  a.side ≠ b.side && a.region = b.region

def other (b : Bracket) : Bracket := ⟨b.side.opposite, b.region⟩

/-- Whether the bracket is either side of the scope of `v`. -/
def delimits (b : Bracket) (v : Variable) : Bool :=
  b.region = .scope v

def render (b : Bracket) (lvl : Detail) : String :=
  match b.side, b.region with
  | .left, .boundary name => "<" ++ name.text ++ ">"
  | .right, .boundary name => "</" ++ name.text ++ ">"
  | .left, .scope v => "var " ++ v.render lvl
  | .right, .scope _ => "/var"
  | _, .embed encoding => encoding.name
  | .left, .limit pattern => "\x7buntil " ++ pattern ++ "\x7d"
  | .right, .limit pattern => "\x7b/until " ++ pattern ++ "\x7d"

theorem pairsWith_iff {a b : Bracket} : a.pairsWith b = true ↔ b = a.other := by
  obtain ⟨s, r⟩ := a
  obtain ⟨s', r'⟩ := b
  cases s <;> cases s' <;> simp [pairsWith, other, Side.opposite, eq_comm]

@[simp] theorem delimits_other (b : Bracket) (v : Variable) :
    b.other.delimits v = b.delimits v := rfl

end Bracket

end ParseLog
