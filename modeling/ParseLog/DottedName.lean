import ParseLog.NameError
import ParseLog.Text.WordChars
/-!
# Dotted names

Productions and variables are named by one or more segments with a full stop between neighbours. The
characters that segments are made of are those of words, and two more. Main statement: joining two
texts by a full stop gives a dotted name exactly when both are dotted names, so a name stays one when
it is qualified by another.
-/

namespace ParseLog
set_option autoImplicit false

/-- The parts between the full stops; the empty text has one empty part. -/
def segments (text : String) : List (List Char) :=
  text.toList.splitOn '.'

theorem segments_join (s t : String) : segments (s ++ "." ++ t) = segments s ++ segments t := by
  simp [segments, List.splitOn_append_cons_self]

namespace WordChars
variable (w : WordChars)

def startsSegment (c : Char) : Bool :=
  w.starts c || c == '_' || c == '$'

def continuesSegment (c : Char) : Bool :=
  w.continues c || c == '$'

def isSegment : List Char → Bool
  | [] => false
  | c :: rest => w.startsSegment c && rest.all w.continuesSegment

def isDotted (text : String) : Bool :=
  (segments text).all w.isSegment

theorem isDotted_join (s t : String) :
    w.isDotted (s ++ "." ++ t) = (w.isDotted s && w.isDotted t) := by
  simp [isDotted, segments_join]

theorem ne_nil_of_isDotted {text : String} (h : w.isDotted text = true) : [] ∉ segments text :=
  fun hnil => Bool.false_ne_true (List.all_eq_true.mp h [] hnil)

end WordChars

/-- A text without an empty segment. Which characters its segments are made of is checked where a
name is made of a text. -/
structure DottedName where
  text : String
  segmented : [] ∉ segments text
  deriving DecidableEq

namespace DottedName

theorem ext_text {a b : DottedName} (h : a.text = b.text) : a = b := by
  cases a; cases b; cases h; rfl

/-- The name with this text, if `w` makes a dotted name of it. -/
def ofString (w : WordChars) (text : String) : Except NameError DottedName :=
  if h : w.isDotted text = true then .ok ⟨text, w.ne_nil_of_isDotted h⟩
  else .error (.notDotted text)

/-- `name` qualified by `outer`: the two texts with a full stop between them. -/
def qualify (name outer : DottedName) : DottedName where
  text := outer.text ++ "." ++ name.text
  segmented := by simp [segments_join, outer.segmented, name.segmented]

/-- Names are ordered as texts are, by code points. -/
instance : Ord DottedName where
  compare := compareOn text

instance : Std.TransOrd DottedName :=
  inferInstanceAs (Std.TransCmp (compareOn text))

instance : Std.LawfulEqOrd DottedName where
  eq_of_compare h := ext_text (Std.LawfulEqOrd.eq_of_compare (α := String) h)

end DottedName

end ParseLog
