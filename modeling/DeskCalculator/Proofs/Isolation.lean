/-
This file proves that the users of a store in memory do not influence each
other, however their operations are interleaved. What a user is answered is
what the user would be answered alone, up to the numbers of the records. The
numbers are shared by all users: they are given in increasing order, and none
is given again, whatever is removed in between.
-/

import DeskCalculator.History

namespace DeskCalculator.MemoryStore

/-! ### Operations and responses -/

/-- The operations that users carry out on a store. -/
inductive Operation where
  | add (entry : Entry)
  | list (user : String) (limit : Nat)
  | clear (user : String)
  deriving DecidableEq

namespace Operation

/-- The user who carries the operation out. -/
def user : Operation → String
  | add entry => entry.user
  | list user _ => user
  | clear user => user

/-- Whether the operation stores an entry. -/
def isAdd : Operation → Bool
  | add _ => true
  | _ => false

end Operation

/-- What a store answers to an operation: the stored item, the listed ones, or how many it
removed. -/
inductive Response (Item : Type) where
  | added (item : Item)
  | listed (items : List Item)
  | cleared (count : Nat)
  deriving DecidableEq

/-- The response with something else in the place of each item. -/
def Response.map {Item Other : Type} (change : Item → Other) : Response Item → Response Other
  | added item => added (change item)
  | listed items => listed (items.map change)
  | cleared count => cleared count

/-- Carries an operation out. -/
def perform (store : MemoryStore) : Operation → MemoryStore × Response Record
  | .add entry => ((store.add entry).1, .added (store.add entry).2)
  | .list user limit => (store, .listed (store.list user limit))
  | .clear user => ((store.clear user).1, .cleared (store.clear user).2)

/-- The store after operations that are carried out one after the other. -/
def after (store : MemoryStore) (operations : List Operation) : MemoryStore :=
  operations.foldl (fun store operation => (store.perform operation).1) store

/-- A run of operations, each with the response to it. -/
abbrev Transcript := List (Operation × Response Record)

/-- Carries operations out one after the other. -/
def transcript (store : MemoryStore) : List Operation → Transcript
  | [] => []
  | operation :: rest =>
    (operation, (store.perform operation).2) :: transcript (store.perform operation).1 rest

/-- What a user is answered, without the numbers of the records. -/
def Transcript.seenBy (user : String) (transcript : Transcript) : List (Response Entry) :=
  (transcript.filter fun step => step.1.user == user).map fun step => step.2.map Record.toEntry

/-- The number that a response shows to have been given. -/
def Response.numberGiven? : Response Record → Option Nat
  | added record => some record.number
  | _ => none

/-- The numbers given to records, in the order in which they were stored. -/
def Transcript.numbersGiven (transcript : Transcript) : List Nat :=
  transcript.filterMap fun step => step.2.numberGiven?

/-! ### The records of one user -/

section

variable {store : MemoryStore} {user other : String}

theorem recordsOf_add_self (entry : Entry) :
    (store.add entry).1.recordsOf entry.user =
      (store.add entry).2 :: store.recordsOf entry.user := by
  simp [recordsOf, add]

theorem recordsOf_add_of_ne {entry : Entry} (different : entry.user ≠ user) :
    (store.add entry).1.recordsOf user = store.recordsOf user := by
  simp [recordsOf, add, different]

theorem recordsOf_clear_self (store : MemoryStore) (user : String) :
    (store.clear user).1.recordsOf user = [] := by
  simp [recordsOf, clear, List.filter_filter]

theorem recordsOf_clear_of_ne (different : other ≠ user) :
    (store.clear other).1.recordsOf user = store.recordsOf user := by
  unfold recordsOf clear
  rw [List.filter_filter]
  refine List.filter_congr fun record _ => ?_
  cases same : record.user == user with
  | false => rfl
  | true =>
    have distinct : record.user ≠ other := fun equal => different (equal ▸ eq_of_beq same)
    simp [distinct]

/-- The operations of other users leave the records of a user as they are. -/
theorem recordsOf_perform_of_ne {operation : Operation} (different : operation.user ≠ user) :
    (store.perform operation).1.recordsOf user = store.recordsOf user := by
  cases operation with
  | add entry => exact recordsOf_add_of_ne different
  | list user limit => rfl
  | clear user => exact recordsOf_clear_of_ne different

end

/-- The entries of a user, newest first: the records without their numbers. -/
def entriesOf (store : MemoryStore) (user : String) : List Entry :=
  (store.recordsOf user).map Record.toEntry

theorem entriesOf_add_self (store : MemoryStore) (entry : Entry) :
    (store.add entry).1.entriesOf entry.user = entry :: store.entriesOf entry.user := by
  rw [entriesOf, recordsOf_add_self, List.map_cons]
  rfl

theorem entriesOf_add_of_ne {store : MemoryStore} {entry : Entry} {user : String}
    (different : entry.user ≠ user) : (store.add entry).1.entriesOf user = store.entriesOf user :=
  congrArg (List.map Record.toEntry) (recordsOf_add_of_ne different)

theorem entriesOf_clear_self (store : MemoryStore) (user : String) :
    (store.clear user).1.entriesOf user = [] := by
  rw [entriesOf, recordsOf_clear_self, List.map_nil]

theorem entriesOf_list (store : MemoryStore) (user : String) (limit : Nat) :
    (store.list user limit).map Record.toEntry = (store.entriesOf user).take limit := by
  rw [list, entriesOf, List.map_take]

theorem clear_snd_eq_length (store : MemoryStore) (user : String) :
    (store.clear user).2 = (store.entriesOf user).length := by
  rw [entriesOf, List.length_map]
  rfl

theorem entriesOf_perform_of_ne {store : MemoryStore} {user : String} {operation : Operation}
    (different : operation.user ≠ user) :
    (store.perform operation).1.entriesOf user = store.entriesOf user :=
  congrArg (List.map Record.toEntry) (recordsOf_perform_of_ne different)

/-! ### What a user is answered -/

/-- Stores that hold the same entries of a user answer the user's operations alike, and hold the
same entries of the user afterwards. -/
theorem perform_alike {first second : MemoryStore} {operation : Operation}
    (alike : first.entriesOf operation.user = second.entriesOf operation.user) :
    (first.perform operation).1.entriesOf operation.user =
        (second.perform operation).1.entriesOf operation.user ∧
      (first.perform operation).2.map Record.toEntry =
        (second.perform operation).2.map Record.toEntry := by
  cases operation with
  | add entry =>
    refine ⟨?_, rfl⟩
    show (first.add entry).1.entriesOf entry.user = (second.add entry).1.entriesOf entry.user
    rw [entriesOf_add_self, entriesOf_add_self]
    exact congrArg (entry :: ·) alike
  | list user limit =>
    refine ⟨alike, congrArg Response.listed ?_⟩
    rw [entriesOf_list, entriesOf_list]
    exact congrArg (List.take limit) alike
  | clear user =>
    refine ⟨?_, congrArg Response.cleared ?_⟩
    · exact (entriesOf_clear_self first user).trans (entriesOf_clear_self second user).symm
    · rw [clear_snd_eq_length, clear_snd_eq_length]
      exact congrArg List.length alike

/-- A user is answered as if the user's operations were the only ones. -/
theorem seenBy_transcript (user : String) (operations : List Operation)
    {store alone : MemoryStore} (alike : store.entriesOf user = alone.entriesOf user) :
    (store.transcript operations).seenBy user =
      (alone.transcript (operations.filter fun operation => operation.user == user)).seenBy
        user := by
  induction operations generalizing store alone with
  | nil => rfl
  | cons operation rest inductionHypothesis =>
    by_cases own : operation.user = user
    · subst own
      obtain ⟨afterwards, answered⟩ := perform_alike alike
      rw [List.filter_cons_of_pos (by simp), transcript, transcript]
      simp only [Transcript.seenBy, List.filter_cons, beq_self_eq_true, if_true, List.map_cons]
      rw [answered]
      exact congrArg _ (inductionHypothesis afterwards)
    · rw [List.filter_cons_of_neg (by simpa using own), ← inductionHypothesis
        ((entriesOf_perform_of_ne own).trans alike), transcript, Transcript.seenBy,
        List.filter_cons_of_neg (by simpa using own)]
      rfl

/-! ### Numbers -/

/-- An operation that stores takes the next number; no other changes the last one. -/
theorem lastNumber_perform (store : MemoryStore) (operation : Operation) :
    (store.perform operation).1.lastNumber =
      store.lastNumber + if operation.isAdd then 1 else 0 := by
  cases operation <;> rfl

theorem lastNumber_after (store : MemoryStore) (operations : List Operation) :
    (store.after operations).lastNumber =
      store.lastNumber + operations.countP Operation.isAdd := by
  induction operations generalizing store with
  | nil => rfl
  | cons operation rest inductionHypothesis =>
    have step := inductionHypothesis (store.perform operation).1
    rw [lastNumber_perform, Nat.add_assoc, Nat.add_comm (ite _ _ _), ← List.countP_cons] at step
    exact step

/-- The numbers given in a run follow the last one without gaps. -/
theorem numbersGiven_transcript (store : MemoryStore) (operations : List Operation) :
    (store.transcript operations).numbersGiven =
      List.range' (store.lastNumber + 1) (operations.countP Operation.isAdd) := by
  induction operations generalizing store with
  | nil => rfl
  | cons operation rest inductionHypothesis =>
    have later := inductionHypothesis (store.perform operation).1
    rw [lastNumber_perform] at later
    cases operation with
    | add entry =>
      rw [List.countP_cons_of_pos rfl, List.range'_succ]
      exact congrArg ((store.lastNumber + 1) :: ·) later
    | list user limit =>
      rw [List.countP_cons_of_neg Bool.false_ne_true]
      exact later
    | clear user =>
      rw [List.countP_cons_of_neg Bool.false_ne_true]
      exact later

/-- Newer records have greater numbers, and no number is above the last one given. -/
structure IsNumbered (store : MemoryStore) : Prop where
  decreasing : store.records.Pairwise fun newer older => older.number < newer.number
  bounded : ∀ record ∈ store.records, record.number ≤ store.lastNumber

theorem isNumbered_empty : IsNumbered {} where
  decreasing := .nil
  bounded := by simp

theorem IsNumbered.perform {store : MemoryStore} (numbered : store.IsNumbered)
    (operation : Operation) : (store.perform operation).1.IsNumbered := by
  cases operation with
  | add entry =>
    refine ⟨List.pairwise_cons.mpr ⟨?_, numbered.decreasing⟩, List.forall_mem_cons.mpr ⟨?_, ?_⟩⟩
    · intro older member
      exact Nat.lt_succ_of_le (numbered.bounded older member)
    · exact Nat.le_refl _
    · intro older member
      exact Nat.le_succ_of_le (numbered.bounded older member)
  | list user limit => exact numbered
  | clear user =>
    refine ⟨numbered.decreasing.filter _, ?_⟩
    intro record member
    exact numbered.bounded record (List.mem_filter.mp member).1

theorem IsNumbered.after {store : MemoryStore} (numbered : store.IsNumbered)
    (operations : List Operation) : (store.after operations).IsNumbered := by
  induction operations generalizing store with
  | nil => exact numbered
  | cons operation rest inductionHypothesis =>
    exact inductionHypothesis (numbered.perform operation)

theorem IsNumbered.list {store : MemoryStore} (numbered : store.IsNumbered) (user : String)
    (limit : Nat) :
    (store.list user limit).Pairwise fun newer older => older.number < newer.number :=
  (numbered.decreasing.filter _).take

theorem IsNumbered.listed_decreasing {store : MemoryStore} (numbered : store.IsNumbered)
    (operations : List Operation) {operation : Operation} {records : List Record}
    (listed : (operation, .listed records) ∈ store.transcript operations) :
    records.Pairwise fun newer older => older.number < newer.number := by
  induction operations generalizing store with
  | nil => cases listed
  | cons first rest inductionHypothesis =>
    rcases List.mem_cons.mp listed with here | later
    · cases first with
      | add entry => cases here
      | list user limit =>
        cases here
        exact numbered.list user limit
      | clear user => cases here
    · exact inductionHypothesis (numbered.perform first) later

/-! ### Interleaved users -/

/-- Two runs on a new store in which a user carries out the same operations answer the user alike,
except for the numbers of the records. In every run the numbers are given in increasing order, so
none is given twice, and there are no more of them than operations that store; every list is in
decreasing order of the numbers; and whatever is stored after a user's records were removed gets
a number above theirs. -/
theorem users_isolated (user : String) :
    (∀ first second : List Operation,
      (first.filter fun operation => operation.user == user) =
        (second.filter fun operation => operation.user == user) →
      (transcript {} first).seenBy user = (transcript {} second).seenBy user) ∧
    (∀ operations : List Operation,
      (transcript {} operations).numbersGiven.Pairwise (· < ·) ∧
      ∀ number ∈ (transcript {} operations).numbersGiven,
        1 ≤ number ∧ number ≤ operations.countP Operation.isAdd) ∧
    (∀ (operations : List Operation) (operation : Operation) (records : List Record),
      (operation, .listed records) ∈ transcript {} operations →
      records.Pairwise fun newer older => older.number < newer.number) ∧
    (∀ earlier later : List Operation, ∀ record ∈ (after {} earlier).recordsOf user,
      ∀ number ∈ ((after {} (earlier ++ [.clear user])).transcript later).numbersGiven,
        record.number < number) := by
  refine ⟨?_, ?_, ?_, ?_⟩
  · intro first second same
    have alike : ({} : MemoryStore).entriesOf user = ({} : MemoryStore).entriesOf user := rfl
    rw [seenBy_transcript user first alike, seenBy_transcript user second alike, same]
  · intro operations
    rw [numbersGiven_transcript]
    refine ⟨List.pairwise_lt_range', fun number member => ?_⟩
    have bounds := List.mem_range'_1.mp member
    have last : (({} : MemoryStore).lastNumber) = 0 := rfl
    omega
  · intro operations operation records listed
    exact isNumbered_empty.listed_decreasing operations listed
  · intro earlier later record member number given
    have held : record ∈ (after {} earlier).records := (List.mem_filter.mp member).1
    have bound := (isNumbered_empty.after earlier).bounded record held
    rw [numbersGiven_transcript, lastNumber_after, List.countP_append] at given
    rw [lastNumber_after] at bound
    have above := (List.mem_range'_1.mp given).1
    omega

/-- A user stores a calculation and lists it. -/
def aliceAlone : List Operation :=
  [.add ⟨"alice", "1 + 1", "2", .degrees⟩, .list "alice" 5]

/-- The same, while another user stores a calculation first and removes it in between. -/
def aliceWithBob : List Operation :=
  [.add ⟨"bob", "2 * PI", "6.283185307179586", .radians⟩,
    .add ⟨"alice", "1 + 1", "2", .degrees⟩, .clear "bob", .list "alice" 5]

/-- The first user's record gets another number, and that is all the first user can see. -/
theorem users_isolated_aliceWithBob :
    (aliceAlone.filter fun operation => operation.user == "alice") =
        (aliceWithBob.filter fun operation => operation.user == "alice") ∧
      (transcript {} aliceAlone).numbersGiven = [1] ∧
      (transcript {} aliceWithBob).numbersGiven = [1, 2] ∧
      (transcript {} aliceAlone).seenBy "alice" = (transcript {} aliceWithBob).seenBy "alice" := by
  have same : (aliceAlone.filter fun operation => operation.user == "alice") =
      (aliceWithBob.filter fun operation => operation.user == "alice") := by decide
  exact ⟨same, by decide, by decide, (users_isolated "alice").1 aliceAlone aliceWithBob same⟩

end DeskCalculator.MemoryStore
