/-
This file answers calculations and questions about their history for many
users. A calculation that has a value and a user is stored once, after it is
evaluated; one that has no value, or no user, is not stored.
-/

import DeskCalculator.History
import DeskCalculator.Settings

namespace DeskCalculator

/-- A service: its settings and the state of its store. -/
structure Service (State : Type) where
  settings : Settings
  store : State

/-- A calculation that a service has made. -/
structure Evaluation where
  expression : String
  mode : AngleMode
  value : Float
  deriving DecidableEq

/-- Reasons for which a service does not answer: the expression has no value, or the store
failed. -/
inductive ServiceFault where
  | calculation (fault : Fault)
  | store (fault : StoreFault)
  deriving DecidableEq

/-- The words for a fault of a service. -/
def ServiceFault.message : ServiceFault → String
  | calculation fault => fault.message
  | store fault => fault.message

/-- The status of a fault: `400` where the caller is at fault and `500` where the store is. -/
def ServiceFault.status : ServiceFault → Nat
  | calculation _ => 400
  | store _ => 500

namespace Service

variable {State : Type} [Store State]

/-- The entry under which a calculation of a user is stored. -/
def entryOf (evaluation : Evaluation) (user : String) : Entry :=
  ⟨user, evaluation.expression, Text.result evaluation.value, evaluation.mode⟩

/-- Stores a calculation if it has a user, and passes it on. -/
def keep (service : Service State) (evaluation : Evaluation) (user? : Option String) :
    Service State × Except ServiceFault Evaluation :=
  match user? with
  | none => (service, .ok evaluation)
  | some user =>
    match Store.add service.store (entryOf evaluation user) with
    | (store, .ok _) => ({ service with store }, .ok evaluation)
    | (store, .error fault) => ({ service with store }, .error (.store fault))

/-- Evaluates an expression in the given mode, or in the mode of the settings. -/
def evaluate (service : Service State) (expression : String) (mode? : Option AngleMode)
    (user? : Option String) : Service State × Except ServiceFault Evaluation :=
  let mode := mode?.getD service.settings.mode
  match service.settings.engine.evaluate expression mode with
  | .error fault => (service, .error (.calculation fault))
  | .ok value => service.keep ⟨expression, mode, value⟩ user?

/-- Reads the newest records of a user, as many as asked for between one and the greatest page, or
a page of the settings. -/
def readHistory (service : Service State) (user : String) (limit? : Option Nat) :
    Service State × Except ServiceFault (List Record) :=
  let limit := Settings.clampPage (limit?.getD service.settings.page)
  match Store.list service.store user limit with
  | (store, answer) => ({ service with store }, answer.mapError .store)

/-- What is read of the history of a user. -/
def history (service : Service State) (user : String) (limit? : Option Nat) :
    Except ServiceFault (List Record) :=
  (service.readHistory user limit?).2

/-- Removes the records of a user, and tells how many there were. -/
def clearHistory (service : Service State) (user : String) :
    Service State × Except ServiceFault Nat :=
  match Store.clear service.store user with
  | (store, answer) => ({ service with store }, answer.mapError .store)

end Service

end DeskCalculator
