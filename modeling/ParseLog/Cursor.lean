import ParseLog.Input
import ParseLog.Text.Writer
/-!
# Cursors

An input can be kept as one buffer with the byte offset at which the rest begins. Nothing in the
definition of a cursor makes its position one at which the buffer can be cut. A cursor at another
position has no rest, and past the end of the buffer the way to the next place to cut never ends.
-/

namespace ParseLog
set_option autoImplicit false

structure Cursor where
  buffer : String
  /-- The byte offset of the rest. -/
  position : Nat
  /-- Whether no more text can arrive. -/
  complete : Bool
  deriving DecidableEq

namespace Cursor

/-- At the start of all of `text`, with no more to come. -/
def ofString (text : String) : Cursor := ⟨text, 0, true⟩

/-- At the start of the text that has arrived so far. -/
def arrived (text : String) : Cursor := ⟨text, 0, false⟩

def rest? (c : Cursor) : Option String :=
  Text.slice? c.buffer c.position c.buffer.utf8ByteSize

def isAtEnd (c : Cursor) : Bool := c.position == c.buffer.utf8ByteSize

/-- Moves on byte by byte to a place to cut. -/
def align? (c : Cursor) : Option Cursor :=
  if Text.IsCut c.buffer c.position then some c
  else Cursor.mk c.buffer (c.position + 1) c.complete |>.align?
partial_fixpoint

/-- Moves `n` bytes on, but not past the end, and from there to the next place to cut. -/
def advance? (c : Cursor) (n : Nat) : Option Cursor :=
  { c with position := min (c.position + n) c.buffer.utf8ByteSize }.align?

/-- Moves past `expected` and gives the cursor there, or none if the rest does not start with it.
A cursor without a rest has no answer. -/
def consume? (c : Cursor) (expected : String) : Option (Option Cursor) := do
  let rest ← c.rest?
  if expected.toList.isPrefixOf rest.toList then
    return some (← c.advance? expected.utf8ByteSize)
  else
    return none

def extend (c : Cursor) (more : String) : Cursor := { c with buffer := c.buffer ++ more }

def finish (c : Cursor) : Cursor := { c with complete := true }

/-- Puts `raw` in front of the rest, as a new buffer. -/
def restore? (c : Cursor) (raw : String) : Option Cursor := do
  return ⟨raw ++ (← c.rest?), 0, c.complete⟩

/-- The quoted rest, with an ellipsis while more may come. -/
def render? (c : Cursor) : Option String := do
  return (← Text.Writer.quote? (← c.rest?)) ++ if c.complete then "" else "..."

/-- The answer to a move, which is a cursor or, if the text to consume is not next, none. -/
def move? (c : Cursor) : Input.Move → Option (Option Cursor)
  | .advance n => (c.advance? n).map some
  | .consume expected => c.consume? expected
  | .extend more => some (some (c.extend more))
  | .finish => some (some c.finish)
  | .restore raw => (c.restore? raw).map some

/-- Makes the moves in order and stays where it is at those that answer with no cursor. -/
def moves? (c : Cursor) (ms : List Input.Move) : Option Cursor :=
  ms.foldlM (fun c m => (c.move? m).map (·.getD c)) c

end Cursor

end ParseLog
