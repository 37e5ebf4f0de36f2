import ParseLog.Enumeration
/-!
# Data and their types

A datum is what a variable may hold. A type is either plain or refers to an enumeration; it admits a
symbol only if its enumeration really contains the symbol.
-/

namespace ParseLog
set_option autoImplicit false

inductive Datum where
  | unit
  | bool (b : Bool)
  | int (n : Int64)
  | text (s : String)
  | symbol (s : Symbol)
  | symbols (s : SortedSet Symbol)
  deriving DecidableEq

namespace Datum

/-- The text of a datum, the same at every level of detail. -/
def render : Datum → String
  | unit => "()"
  | bool b => if b then "true" else "false"
  | int n => toString n.toInt
  | text s => s
  | symbol s => s.name
  | symbols s => "(" ++ ", ".intercalate (s.toList.map (·.name)) ++ ")"

def symbols? : Datum → Option (SortedSet Symbol)
  | symbols s => some s
  | _ => none

end Datum

inductive ValueType where
  | unit
  | bool
  | int
  | text
  | symbol (e : Enumeration)
  | symbols (e : Enumeration)
  deriving DecidableEq

namespace ValueType

def name : ValueType → String
  | unit => "Unit"
  | bool => "bool"
  | int => "int"
  | text => "String"
  | symbol e => e.name
  | symbols e => e.name ++ "*"

def admits : ValueType → Datum → Bool
  | unit, .unit => true
  | bool, .bool _ => true
  | int, .int _ => true
  | text, .text _ => true
  | symbol e, .symbol s => e.contains s
  | symbols e, .symbols s => s.toList.all e.contains
  | _, _ => false

theorem isSome_symbols?_of_admits {e : Enumeration} {d : Datum} (h : (symbols e).admits d = true) :
    d.symbols?.isSome = true := by
  cases d <;> simp_all [admits, Datum.symbols?]

end ValueType

end ParseLog
