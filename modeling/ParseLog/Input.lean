import ParseLog.Text.Quoted
/-!
# Input positions

An input is cut at a character boundary into the text already consumed and the rest. Two inputs are
the same when both parts agree and both are complete or both are not: the same rest behind another
consumed text is another input.
-/

namespace ParseLog
set_option autoImplicit false

structure Input where
  consumed : String
  rest : String
  /-- Whether no more text can arrive. -/
  complete : Bool
  deriving DecidableEq

/-- Cuts after the fewest characters whose UTF-8 bytes number at least `n`, or at the end. -/
def splitAtByte : Nat → List Char → List Char × List Char
  | 0, cs => ([], cs)
  | _ + 1, [] => ([], [])
  | n + 1, c :: cs =>
    let (before, after) := splitAtByte (n + 1 - c.utf8Size) cs
    (c :: before, after)

theorem splitAtByte_append (n : Nat) (cs : List Char) :
    (splitAtByte n cs).1 ++ (splitAtByte n cs).2 = cs := by
  fun_induction splitAtByte n cs with
  | case1 => rfl
  | case2 => rfl
  | case3 n c cs before after h ih => simpa [h] using ih

namespace Input

/-- All of `text`, with no more to come. -/
def ofString (text : String) : Input := ⟨"", text, true⟩

/-- The text that has arrived so far. -/
def arrived (text : String) : Input := ⟨"", text, false⟩

/-- Consumed and upcoming text together. -/
def buffer (i : Input) : String := i.consumed ++ i.rest

/-- The byte offset of the cut in the buffer. -/
def offset (i : Input) : Nat := i.consumed.utf8ByteSize

/-- Moves past `n` bytes of the rest, rounded up to a whole character and stopped at the end. -/
def advance (i : Input) (n : Nat) : Input :=
  let (before, after) := splitAtByte n i.rest.toList
  { i with consumed := i.consumed ++ String.ofList before, rest := String.ofList after }

/-- Moves past `expected` if the rest starts with it. -/
def consume? (i : Input) (expected : String) : Option Input :=
  (expected.toList.isPrefixOf? i.rest.toList).map fun after =>
    { i with consumed := i.consumed ++ expected, rest := String.ofList after }

def extend (i : Input) (more : String) : Input := { i with rest := i.rest ++ more }

def finish (i : Input) : Input := { i with complete := true }

/-- Puts `raw` back in front of the rest; what was consumed before is forgotten. -/
def restore (i : Input) (raw : String) : Input := { i with consumed := "", rest := raw ++ i.rest }

/-- The quoted rest, with an ellipsis while more may come. -/
def render (i : Input) : String :=
  Text.quote i.rest ++ if i.complete then "" else "..."

/-- One way to get from an input to another. -/
inductive Move where
  | advance (n : Nat)
  | consume (expected : String)
  | extend (more : String)
  | finish
  | restore (raw : String)

/-- The input after a move; nothing if the text to consume is not next. -/
def move? (i : Input) : Move → Option Input
  | .advance n => some (i.advance n)
  | .consume expected => i.consume? expected
  | .extend more => some (i.extend more)
  | .finish => some i.finish
  | .restore raw => some (i.restore raw)

/-- Makes the moves in order and leaves out those that fail. -/
def moves (i : Input) (ms : List Move) : Input :=
  ms.foldl (fun i m => (i.move? m).getD i) i

end Input

end ParseLog
