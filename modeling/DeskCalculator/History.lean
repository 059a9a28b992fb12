/-
This file keeps the calculations of many users. A store gives every record a
new number, lists a user's records newest first, and removes them. Stores may
fail; the one in memory does so only once its lock is poisoned.
-/

import DeskCalculator.Angle

namespace DeskCalculator

/-! ### Records and stores -/

/-- What a user's calculation is before it is stored: the expression as it was given, the text of
its result, and the angle mode of its evaluation. -/
structure Entry where
  user : String
  expression : String
  result : String
  mode : AngleMode
  deriving DecidableEq

/-- A stored entry with its number. -/
structure Record extends Entry where
  number : Nat
  deriving DecidableEq

/-- Reasons for which a store fails. -/
inductive StoreFault where
  | unavailable
  deriving DecidableEq

/-- The words for a fault of a store. -/
def StoreFault.message : StoreFault → String
  | unavailable => "history store unavailable (poisoned lock)"

/-- The operations of a store with states of type `State`. -/
class Store (State : Type) where
  /-- Stores an entry. -/
  add : State → Entry → State × Except StoreFault Record
  /-- The newest records of a user, newest first, at most the given number. -/
  list : State → String → Nat → State × Except StoreFault (List Record)
  /-- Removes the records of a user, and tells how many there were. -/
  clear : State → String → State × Except StoreFault Nat

/-! ### The store in memory -/

/-- A store in memory: the number of the last record, and the records newest first. -/
structure MemoryStore where
  lastNumber : Nat := 0
  records : List Record := []

namespace MemoryStore

/-- The records of a user, newest first. -/
def recordsOf (store : MemoryStore) (user : String) : List Record :=
  store.records.filter fun record => record.user == user

/-- Stores an entry under the next number. -/
def add (store : MemoryStore) (entry : Entry) : MemoryStore × Record :=
  let record := { entry with number := store.lastNumber + 1 }
  (⟨store.lastNumber + 1, record :: store.records⟩, record)

/-- The newest records of a user, newest first. -/
def list (store : MemoryStore) (user : String) (limit : Nat) : List Record :=
  (store.recordsOf user).take limit

/-- Removes the records of a user. Their numbers are not given again. -/
def clear (store : MemoryStore) (user : String) : MemoryStore × Nat :=
  ({ store with records := store.records.filter fun record => record.user != user },
    (store.recordsOf user).length)

instance : Store MemoryStore where
  add store entry := ((store.add entry).1, .ok (store.add entry).2)
  list store user limit := (store, .ok (store.list user limit))
  clear store user := ((store.clear user).1, .ok (store.clear user).2)

end MemoryStore

/-! ### The store behind a poisoned lock -/

/-- A store in memory whose lock is poisoned, since someone has failed while holding it. The records
are still there, but no operation gets to them any more. -/
structure ClosedStore where
  memory : MemoryStore := {}

instance : Store ClosedStore where
  add store _ := (store, .error .unavailable)
  list store _ _ := (store, .error .unavailable)
  clear store _ := (store, .error .unavailable)

end DeskCalculator
