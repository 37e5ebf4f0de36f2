import ParseLog.Text.VisibilityTables
/-!
# Texts shown legibly in messages

A message shows a foreign text between double quotes with every character visible: one that has no
form of its own, that may be shown as nothing, or that merges with the character before it, appears
as its code point.
-/

namespace ParseLog.Text
set_option autoImplicit false

/-- The halfwidth katakana sound marks. They extend a grapheme, but each is as wide as a letter and
stands beside the letter it modifies. -/
def isHalfwidthSoundMark (c : Char) : Bool := c = '\uff9e' || c = '\uff9f'

/-- A character is invisible if it has no form of its own, may be ignored or merges with its
neighbour. -/
def isInvisible (c : Char) : Bool :=
  isFormless c || isDefaultIgnorable c || (extendsGrapheme c && !isHalfwidthSoundMark c)

/-- `\u`, then the code point in lower-case hexadecimal between braces. -/
def codePointEscape (c : Char) : List Char :=
  ['\\', 'u', '\x7b'] ++ Nat.toDigits 16 c.toNat ++ ['\x7d']

def legibleChar (c : Char) : List Char :=
  if c = '\x00' then ['\\', '0']
  else if c = '\t' then ['\\', 't']
  else if c = '\r' then ['\\', 'r']
  else if c = '\n' then ['\\', 'n']
  else if c = '"' then ['\\', '"']
  else if c = '\\' then ['\\', '\\']
  else if isInvisible c then codePointEscape c
  else [c]

/-- The text between double quotes, each character of it legible. -/
def legible (s : String) : String :=
  String.ofList ('"' :: s.toList.flatMap legibleChar ++ ['"'])

end ParseLog.Text
