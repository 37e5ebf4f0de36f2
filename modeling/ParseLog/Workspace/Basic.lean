import ParseLog.Input
import ParseLog.Workspace.Position
/-!
# Workspaces

A workspace keeps logs and inputs under names. A log that has not been stored yet is empty, and an
input that has not been stored yet is the complete empty text.
-/

namespace ParseLog
set_option autoImplicit false

/-- Puts `a` under `name`, in place of what is there. -/
def assign {α : Type} (entries : List (String × α)) (name : String) (a : α) : List (String × α) :=
  (name, a) :: entries.filter (·.1 ≠ name)

structure Workspace where
  logs : List (String × Position)
  inputs : List (String × Input)
  /-- The serial number for the next event. -/
  fresh : Nat

namespace Workspace

def empty : Workspace := ⟨[], [], 0⟩

def position (w : Workspace) (name : String) : Position :=
  (w.logs.lookup name).getD .empty

def log (w : Workspace) (name : String) : Log := (w.position name).log

def input (w : Workspace) (name : String) : Input :=
  (w.inputs.lookup name).getD (.ofString "")

/-- Stores a log that goes on from the one under `source` with its `added` most recent events. -/
def storeLog (w : Workspace) (source target : String) (log : Log) (added : Nat) : Workspace :=
  { w with
    logs := assign w.logs target ((w.position source).derive log added w.fresh)
    fresh := w.fresh + added }

/-- Stores a log that shares nothing with any other. -/
def storeNewLog (w : Workspace) (target : String) (log : Log) : Workspace :=
  w.storeLog target target log log.length

def storeInput (w : Workspace) (target : String) (input : Input) : Workspace :=
  { w with inputs := assign w.inputs target input }

end Workspace

end ParseLog
