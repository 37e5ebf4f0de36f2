import ParseLog.NameError
/-!
# Encodings of embedded languages

A text of an embedded language stands inside a text of the language around it in encoded form. Each
encoding works character by character, so it takes concatenation to concatenation.
-/

namespace ParseLog
set_option autoImplicit false

inductive Encoding where
  /-- Character references for the characters that HTML reserves. -/
  | html
  /-- Percent triplets for all but the unreserved characters. -/
  | percent
  /-- Percent triplets, and a plus for a space. -/
  | percentPlus
  deriving DecidableEq

namespace Encoding

def name : Encoding → String
  | html => "html"
  | percent => "pct"
  | percentPlus => "pctPlus"

def ofName? (name : String) : Option Encoding :=
  [html, percent, percentPlus].find? (·.name == name)

def ofName (name : String) : Except NameError Encoding :=
  match ofName? name with
  | some e => .ok e
  | none => .error (.unknownEncoding name)

theorem ofName?_name (e : Encoding) : ofName? e.name = some e := by
  cases e <;> decide

def characterReference (c : Char) : List Char :=
  if c = '&' then ['&', 'a', 'm', 'p', ';']
  else if c = '<' then ['&', 'l', 't', ';']
  else if c = '>' then ['&', 'g', 't', ';']
  else if c = '"' then ['&', 'q', 'u', 'o', 't', ';']
  else if c = '\'' then ['&', '#', '3', '9', ';']
  else if c = '\x00' then ['&', '#', '0', ';']
  else [c]

/-- ASCII letters and digits, `-`, `.`, `_` and `~`. -/
def isUnreserved (c : Char) : Bool :=
  c.isAlphanum || c == '-' || c == '.' || c == '_' || c == '~'

/-- The upper-case hexadecimal digit of `n < 16`. -/
def hexDigit (n : Nat) : Char :=
  Char.ofNat (if n < 10 then 48 + n else 55 + n)

def percentTriplet (b : UInt8) : List Char :=
  ['%', hexDigit (b.toNat / 16), hexDigit (b.toNat % 16)]

/-- An unreserved character stands for itself, another for the triplets of its UTF-8 bytes. -/
def percentChar (c : Char) : List Char :=
  if isUnreserved c then [c] else (String.utf8EncodeChar c).flatMap percentTriplet

def encodeChar : Encoding → Char → List Char
  | html, c => characterReference c
  | percent, c => percentChar c
  | percentPlus, c => if c = ' ' then ['+'] else percentChar c

def encode (e : Encoding) (s : String) : String :=
  String.ofList (s.toList.flatMap e.encodeChar)

theorem toList_encode (e : Encoding) (s : String) :
    (e.encode s).toList = s.toList.flatMap e.encodeChar := by
  simp [encode]

theorem encode_append (e : Encoding) (s t : String) :
    e.encode (s ++ t) = e.encode s ++ e.encode t := by
  simp [encode, String.ofList_append]

end Encoding

end ParseLog
