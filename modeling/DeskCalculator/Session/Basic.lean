/-
This file holds the state of one calculator in use: the entry that is being
typed, the display, the fault of the last attempt, the angle mode, the memory
and the calculations made so far, newest first. A fault leaves the display and
the history as they were.
-/

import DeskCalculator.Settings

namespace DeskCalculator

/-- A calculation in the history of a session: the entry as it was typed, its value, and the text
that the display showed for it. -/
structure Calculation where
  entry : String
  value : Float
  shown : String
  deriving DecidableEq

/-- The number of calculations that a session remembers. -/
def sessionCapacity : Nat := 50

/-- The state of a calculator in use. -/
structure Session where
  engine : Engine
  mode : AngleMode
  entry : String := ""
  shown : String := "0"
  value : Float := 0.0
  fault? : Option Fault := none
  memory : Float := 0.0
  history : List Calculation := []

namespace Session

/-- A new session with the given settings. -/
def start (settings : Settings) : Session :=
  { engine := settings.engine, mode := settings.mode }

/-! ### Entry -/

/-- Adds a text to the entry and takes a fault off the display. -/
def append (session : Session) (text : String) : Session :=
  { session with entry := session.entry ++ text, fault? := none }

/-- Replaces the entry. -/
def assign (session : Session) (text : String) : Session :=
  { session with entry := text }

/-- Takes the last character off the entry, and a fault off the display. -/
def deleteLast (session : Session) : Session :=
  { session with entry := String.ofList session.entry.toList.dropLast, fault? := none }

/-- Empties the entry and the display; the memory and the history stay. -/
def clear (session : Session) : Session :=
  { session with entry := "", shown := "0", value := 0.0, fault? := none }

/-- Sets the angle mode. -/
def setMode (session : Session) (mode : AngleMode) : Session :=
  { session with mode }

/-! ### Evaluation and history -/

/-- Shows a value and puts its calculation in front of the history. -/
def record (session : Session) (value : Float) : Session :=
  let calculation := ⟨session.entry, value, Text.result value⟩
  { session with
    value
    shown := calculation.shown
    fault? := none
    history := (calculation :: session.history).take sessionCapacity }

/-- Evaluates the entry. A blank entry has no value and changes nothing. -/
def evaluate (session : Session) : Session × Except Fault (Option Float) :=
  if isBlankText session.entry then (session, .ok none)
  else
    match session.engine.evaluate session.entry session.mode with
    | .ok value => (session.record value, .ok (some value))
    | .error fault => ({ session with fault? := some fault }, .error fault)

/-- Brings a calculation of the history back, counted from the newest one; tells whether there
is one at that place. -/
def restore (session : Session) (index : Nat) : Session × Bool :=
  match session.history[index]? with
  | none => (session, false)
  | some calculation =>
    ({ session with
        entry := calculation.entry
        shown := calculation.shown
        value := calculation.value
        fault? := none }, true)

/-- Empties the history. -/
def clearHistory (session : Session) : Session :=
  { session with history := [] }

/-! ### Memory -/

/-- Sets the memory to zero. -/
def memoryClear (session : Session) : Session :=
  { session with memory := 0.0 }

/-- Adds the result text of the memory to the entry. -/
def memoryRecall (session : Session) : Session :=
  session.append (Text.result session.memory)

/-- Adds the value on the display to the memory. -/
def memoryAdd (session : Session) : Session :=
  { session with memory := session.memory + session.value }

/-- Subtracts the value on the display from the memory. -/
def memorySubtract (session : Session) : Session :=
  { session with memory := session.memory - session.value }

/-- Stores the value on the display in the memory. -/
def memoryStore (session : Session) : Session :=
  { session with memory := session.value }

end Session

end DeskCalculator
