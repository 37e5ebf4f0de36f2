import ParseLog.Proofs.Log.Typing
import ParseLog.Proofs.Workspace.Session
/-!
# Well-typed sessions

If all values that a session starts with and adds are made as values are made, and all members that
are written stand at positions that fit into the index of a symbol, then every value it leaves on a log
is well-typed, whatever was rolled back, committed, compacted or joined meanwhile. A member beyond that
bound is written as a value that cannot be read.
-/

namespace ParseLog
set_option autoImplicit false

namespace Tracked

def context : Enumeration := ⟨"Context", "html", ["Text", "Script", "Style"]⟩

def text : context.Member := ⟨0, by decide⟩

def script : context.Member := ⟨1, by decide⟩

def style : context.Member := ⟨2, by decide⟩

def possible : Variable := ⟨⟨"possible", by decide +kernel⟩, .multi context⟩

def holding (ms : List context.Member) : Value := possible.record (SortedSet.ofList ms)

def base : Variable := ⟨⟨"base", by decide +kernel⟩, .single .text⟩

def rooted : Value := base.record "/"

def slots (name : String) : Slots := ⟨name, name, "input", "input"⟩

def session : List (Slots × Command) :=
  [(slots "a", .append (.value rooted)), (slots "a", .push .branch),
    (slots "a", .append (.value (holding [text, script]))), (slots "a", .commit .branch),
    (slots "b", .record [.value rooted, .value (holding [script, style])]),
    (slots "joint", .jointLog ["a", "b"]), (slots "joint", .compact)]

end Tracked

namespace Overfull

def memberName (n : Nat) : String := String.ofList (List.replicate (n + 1) 'M')

def code (n : Nat) : Enumeration := ⟨"Code", "page", (List.range n).map memberName⟩

theorem length_code (n : Nat) : (code n).members.length = n := by
  simp [code]

/-- The last member of an enumeration with one member more than symbols have indices. -/
def last : (code 65537).Member := ⟨65536, by rw [length_code]; decide⟩

def chosen : Variable := ⟨⟨"chosen", by decide +kernel⟩, .single (.symbol (code 65537))⟩

def session : List (Slots × Command) :=
  [(⟨"page", "page", "input", "input"⟩, .append (.value (chosen.record last)))]

end Overfull

end ParseLog
