import ParseLog.Text.Quoted
import ParseLog.Text.Slice
/-!
# Writing quoted texts

The writer of quoted texts looks at each character once. It does not copy characters that stand for
themselves one by one: where it meets a character with an escape, or the end, it copies the stretch of
characters since the last escape as one slice of the text.
-/

namespace ParseLog.Text
set_option autoImplicit false

/-- The characters with the byte offsets at which they begin, the first one at `offset`. -/
def withOffsets (offset : Nat) : List Char → List (Nat × Char)
  | [] => []
  | c :: cs => (offset, c) :: withOffsets (offset + c.utf8Size) cs

structure Writer where
  written : String
  /-- The byte offset of the stretch that is still to be copied. -/
  plainFrom : Nat

namespace Writer

/-- Copies the stretch that ends at the byte offset `last`. -/
def copy? (s : String) (w : Writer) (last : Nat) : Option String := do
  return w.written ++ (← slice? s w.plainFrom last)

def step? (s : String) (w : Writer) : Nat × Char → Option Writer
  | (offset, c) =>
    if escapeChar c = [c] then some w
    else do
      return ⟨(← w.copy? s offset) ++ String.ofList (escapeChar c), offset + c.utf8Size⟩

/-- The text written between double quotes; nothing if some stretch cannot be cut out of it. -/
def quote? (s : String) : Option String := do
  let w ← (withOffsets 0 s.toList).foldlM (step? s) ⟨"\"", 0⟩
  return (← w.copy? s s.utf8ByteSize) ++ "\""

end Writer

end ParseLog.Text
