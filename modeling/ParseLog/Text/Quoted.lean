/-!
# Quoted texts

A quoted text stands between double quotes. Control characters with a letter of their own, quotes,
backslashes and the line separators are escaped; every other character stands for itself.
-/

namespace ParseLog.Text
set_option autoImplicit false

/-- How one character is written between double quotes. -/
def escapeChar (c : Char) : List Char :=
  if c = '\x00' then ['\\', 'u', '0', '0', '0', '0']
  else if c = '\x08' then ['\\', 'b']
  else if c = '\t' then ['\\', 't']
  else if c = '\n' then ['\\', 'n']
  else if c = '\x0c' then ['\\', 'f']
  else if c = '\r' then ['\\', 'r']
  else if c = '"' then ['\\', '"']
  else if c = '\\' then ['\\', '\\']
  else if c = '\u201C' then ['\\', 'u', '2', '0', '1', 'C']
  else if c = '\u201D' then ['\\', 'u', '2', '0', '1', 'D']
  else if c = '\u2028' then ['\\', 'u', '2', '0', '2', '8']
  else if c = '\u2029' then ['\\', 'u', '2', '0', '2', '9']
  else [c]

def quote (s : String) : String :=
  String.ofList ('"' :: s.toList.flatMap escapeChar ++ ['"'])

theorem toList_quote (s : String) :
    (quote s).toList = '"' :: s.toList.flatMap escapeChar ++ ['"'] := by
  simp [quote]

end ParseLog.Text
