/-
This file proves what a request to evaluate asks of the store, whatever the
store does with it and however bodies are read. A body that is no request, an
empty expression and one that the engine refuses are faults of the caller, and
the store is not asked about them; nor is it about a calculation without a user.
A calculation of a user is added once, and if the store fails to add it, the
answer tells the fault of the store and no result.
-/

import DeskCalculator.Proofs.Composition
import DeskCalculator.Proofs.Documents

namespace DeskCalculator

/-! ### Watched stores -/

/-- The calls to a store. -/
inductive StoreCall where
  | add (entry : Entry)
  | list (user : String) (limit : Nat)
  | clear (user : String)
  deriving DecidableEq

/-- A store with the calls made to it, the last one first. -/
structure WatchedStore (State : Type) where
  store : State
  calls : List StoreCall := []

variable {State : Type} [keeper : Store State]

instance : Store (WatchedStore State) where
  add watched entry :=
    (⟨(Store.add watched.store entry).1, .add entry :: watched.calls⟩,
      (Store.add watched.store entry).2)
  list watched user limit :=
    (⟨(Store.list watched.store user limit).1, .list user limit :: watched.calls⟩,
      (Store.list watched.store user limit).2)
  clear watched user :=
    (⟨(Store.clear watched.store user).1, .clear user :: watched.calls⟩,
      (Store.clear watched.store user).2)

namespace Service

/-- The service with a watch on its store. -/
def watched (service : Service State) : Service (WatchedStore State) :=
  ⟨service.settings, ⟨service.store, []⟩⟩

/-- The calls to the store for the answer to a body. -/
def callsFor (service : Service State) (reader : BodyReader) (body : String)
    (user? : Option String) : List StoreCall :=
  (service.watched.answerBody body user? reader).1.store.calls

/-! ### Bodies -/

/-- The body is refused: it is no request, or its expression is empty, or the engine refuses the
expression in the mode of the request or else in that of the settings. -/
def Refuses (reader : BodyReader) (settings : Settings) (body : String) : Prop :=
  (∃ reason?, reader body = .error reason?) ∨
    ∃ expression mode?, reader body = .ok ⟨expression, mode?⟩ ∧
      (expression = "" ∨
        ∃ fault, settings.engine.evaluate expression (mode?.getD settings.mode) = .error fault)

/-- The body is a request that comes to this evaluation: its expression, not empty, and the value
of the expression in the mode of the request or else in that of the settings. -/
structure Evaluates (reader : BodyReader) (settings : Settings) (body : String)
    (evaluation : Evaluation) : Prop where
  read : ∃ mode?, reader body = .ok ⟨evaluation.expression, mode?⟩ ∧
    evaluation.mode = mode?.getD settings.mode
  nonempty : evaluation.expression ≠ ""
  evaluated : settings.engine.evaluate evaluation.expression evaluation.mode = .ok evaluation.value

variable {reader : BodyReader}

theorem refuses_or_evaluates (reader : BodyReader) (settings : Settings) (body : String) :
    Refuses reader settings body ∨ ∃ evaluation, Evaluates reader settings body evaluation := by
  cases read : reader body with
  | error reason? => exact .inl (.inl ⟨reason?, read⟩)
  | ok request =>
    obtain ⟨expression, mode?⟩ := request
    by_cases empty : expression = ""
    · exact .inl (.inr ⟨expression, mode?, read, .inl empty⟩)
    · cases evaluated : settings.engine.evaluate expression (mode?.getD settings.mode) with
      | error fault => exact .inl (.inr ⟨expression, mode?, read, .inr ⟨fault, evaluated⟩⟩)
      | ok value => exact .inr ⟨⟨expression, _, value⟩, ⟨mode?, read, rfl⟩, empty, evaluated⟩

/-! ### Answers -/

/-- A refused body is answered before the store is asked, so every store gets the same answer. -/
theorem answerBody_of_refuses {settings : Settings} {body : String}
    (refuses : Refuses reader settings body) :
    ∃ message, ∀ {State : Type} [Store State] (store : State) (user? : Option String),
      (⟨settings, store⟩ : Service State).answerBody body user? reader =
        (⟨settings, store⟩, ⟨400, .fault message⟩) := by
  unfold answerBody
  obtain ⟨reason?, malformed⟩ | ⟨expression, mode?, read, empty | ⟨fault, refused⟩⟩ := refuses
  · rw [malformed]
    exact ⟨_, fun _ _ => rfl⟩
  · rw [read, empty]
    exact ⟨_, fun _ _ => rfl⟩
  · rw [read]
    dsimp only
    unfold answerEvaluation
    dsimp only
    cases expression.isEmpty with
    | true => exact ⟨_, fun _ _ => rfl⟩
    | false =>
      refine ⟨fault.message, fun store user? => ?_⟩
      unfold evaluate
      simp only [refused]
      rfl

theorem answerBody_of_evaluates {service : Service State} {body : String}
    {evaluation : Evaluation} (evaluates : Evaluates reader service.settings body evaluation)
    (user? : Option String) :
    service.answerBody body user? reader =
      match service.keep evaluation user? with
      | (service, .ok evaluation) => (service, .granted (.evaluated evaluation))
      | (service, .error fault) => (service, .failed fault) := by
  obtain ⟨⟨mode?, read, mode_eq⟩, nonempty, evaluated⟩ := evaluates
  obtain ⟨expression, mode, value⟩ := evaluation
  obtain rfl : mode = mode?.getD service.settings.mode := mode_eq
  have visible : expression.isEmpty = false := by
    simpa using nonempty
  unfold answerBody answerEvaluation evaluate
  rw [read]
  simp only [visible, evaluated]
  rfl

/-- The answer to a calculation of a user, once the store has been asked to add it. -/
def storedAnswer (evaluation : Evaluation) : Except StoreFault Record → Answer
  | .ok _ => ⟨200, .evaluated evaluation⟩
  | .error fault => ⟨500, .fault fault.message⟩

theorem answerBody_of_user {service : Service State} {body : String} {evaluation : Evaluation}
    (evaluates : Evaluates reader service.settings body evaluation) (user : String) :
    service.answerBody body (some user) reader =
      ({ service with store := (Store.add service.store (entryOf evaluation user)).1 },
        storedAnswer evaluation (Store.add service.store (entryOf evaluation user)).2) := by
  rw [answerBody_of_evaluates evaluates]
  unfold keep
  dsimp only
  generalize Store.add service.store _ = added
  obtain ⟨store, _ | _⟩ := added <;> rfl

theorem answerBody_of_anonymous {service : Service State} {body : String}
    {evaluation : Evaluation} (evaluates : Evaluates reader service.settings body evaluation) :
    service.answerBody body none reader = (service, ⟨200, .evaluated evaluation⟩) :=
  answerBody_of_evaluates evaluates none

theorem status_storedAnswer (evaluation : Evaluation) (outcome : Except StoreFault Record) :
    (storedAnswer evaluation outcome).status ≠ 400 := by
  cases outcome <;> exact Nat.ne_of_beq_eq_false rfl

theorem status_of_evaluates {service : Service State} {body : String} {evaluation : Evaluation}
    (evaluates : Evaluates reader service.settings body evaluation) (user? : Option String) :
    (service.answerBody body user? reader).2.status ≠ 400 := by
  cases user? with
  | none =>
    rw [answerBody_of_anonymous evaluates]
    exact Nat.ne_of_beq_eq_false rfl
  | some user =>
    rw [answerBody_of_user evaluates]
    exact status_storedAnswer evaluation _

/-- The watch on a store changes neither the answers nor the store. -/
theorem answerBody_watched (service : Service State) (reader : BodyReader) (body : String)
    (user? : Option String) :
    (service.watched.answerBody body user? reader).2 =
        (service.answerBody body user? reader).2 ∧
      (service.watched.answerBody body user? reader).1.store.store =
        (service.answerBody body user? reader).1.store := by
  obtain refuses | ⟨evaluation, evaluates⟩ := refuses_or_evaluates reader service.settings body
  · obtain ⟨message, answered⟩ := answerBody_of_refuses refuses
    rw [watched, answered, answered service.store]
    exact ⟨rfl, rfl⟩
  · have watchedEvaluates : Evaluates reader service.watched.settings body evaluation := evaluates
    cases user? with
    | none =>
      rw [answerBody_of_anonymous evaluates, answerBody_of_anonymous watchedEvaluates]
      exact ⟨rfl, rfl⟩
    | some user =>
      rw [answerBody_of_user evaluates, answerBody_of_user watchedEvaluates]
      exact ⟨rfl, rfl⟩

/-- A store that adds alike gets the same answer, whatever its other operations do. -/
theorem answerBody_congr {other : Store State} {service : Service State}
    (same : ∀ entry, other.add service.store entry = keeper.add service.store entry)
    (reader : BodyReader) (body : String) (user? : Option String) :
    @answerBody State other service body user? reader =
      @answerBody State keeper service body user? reader := by
  obtain refuses | ⟨evaluation, evaluates⟩ := refuses_or_evaluates reader service.settings body
  · obtain ⟨message, answered⟩ := answerBody_of_refuses refuses
    exact (@answered State other service.store user?).trans
      (@answered State keeper service.store user?).symm
  · cases user? with
    | none =>
      rw [@answerBody_of_anonymous State other reader service body evaluation evaluates,
        @answerBody_of_anonymous State keeper reader service body evaluation evaluates]
    | some user =>
      rw [@answerBody_of_user State other reader service body evaluation evaluates user,
        @answerBody_of_user State keeper reader service body evaluation evaluates user, same]

/-- What a service asks of its store for the answer to a body, and how the answer comes out. -/
structure AsksStore (service : Service State) (reader : BodyReader) (body : String)
    (user? : Option String) : Prop where
  /-- The caller is at fault exactly if the body is refused. -/
  status_iff : (service.answerBody body user? reader).2.status = 400 ↔
    Refuses reader service.settings body
  /-- A refused body is answered without the store. -/
  refused : Refuses reader service.settings body →
    (∃ message, service.answerBody body user? reader = (service, ⟨400, .fault message⟩)) ∧
      service.callsFor reader body user? = []
  /-- Any other body comes to an evaluation. -/
  evaluates : ¬Refuses reader service.settings body →
    ∃ evaluation, Evaluates reader service.settings body evaluation
  /-- An evaluation without a user is answered without the store. -/
  anonymous : ∀ evaluation, Evaluates reader service.settings body evaluation → user? = none →
    service.answerBody body user? reader = (service, ⟨200, .evaluated evaluation⟩) ∧
      service.callsFor reader body user? = []
  /-- An evaluation of a user is added to the store once, and nothing else is asked of it. -/
  added : ∀ evaluation user, Evaluates reader service.settings body evaluation →
    user? = some user →
    service.callsFor reader body user? =
      [.add ⟨user, evaluation.expression, Text.result evaluation.value, evaluation.mode⟩]
  /-- If the store adds it, the evaluation is the answer. -/
  stored : ∀ evaluation user store record, Evaluates reader service.settings body evaluation →
    user? = some user →
    Store.add service.store (entryOf evaluation user) = (store, .ok record) →
    service.answerBody body user? reader =
      ({ service with store }, ⟨200, .evaluated evaluation⟩)
  /-- If the store fails to add it, the fault of the store is all that the answer holds. -/
  failed : ∀ evaluation user store fault, Evaluates reader service.settings body evaluation →
    user? = some user →
    Store.add service.store (entryOf evaluation user) = (store, .error fault) →
    service.answerBody body user? reader = ({ service with store }, ⟨500, .fault fault.message⟩)
  /-- The watch on the store changes neither the answer nor the store. -/
  watched : (service.watched.answerBody body user? reader).2 =
      (service.answerBody body user? reader).2 ∧
    (service.watched.answerBody body user? reader).1.store.store =
      (service.answerBody body user? reader).1.store
  /-- No other operation of the store has a say in the answer. -/
  onlyAdds : ∀ other : Store State,
    (∀ entry, other.add service.store entry = keeper.add service.store entry) →
    @answerBody State other service body user? reader =
      @answerBody State keeper service body user? reader

/-- However bodies are read and whatever a store does, a body is brought to the store only if it is
a request of a user and comes to an evaluation, and then once; the answer blames the caller only for
a refused body, and the store only for its own fault. -/
theorem answerBody_asksStore (service : Service State) (reader : BodyReader) (body : String)
    (user? : Option String) : AsksStore service reader body user? where
  status_iff := by
    refine ⟨fun blamed => ?_, fun refuses => ?_⟩
    · refine (refuses_or_evaluates reader service.settings body).resolve_right ?_
      rintro ⟨evaluation, evaluates⟩
      exact status_of_evaluates evaluates user? blamed
    · obtain ⟨message, answered⟩ := answerBody_of_refuses refuses
      exact congrArg (fun answer => answer.2.status) (answered service.store user?)
  refused refuses := by
    obtain ⟨message, answered⟩ := answerBody_of_refuses refuses
    refine ⟨⟨message, answered service.store user?⟩, ?_⟩
    rw [callsFor, watched, answered]
  evaluates := (refuses_or_evaluates reader service.settings body).resolve_left
  anonymous evaluation evaluates nobody := by
    subst nobody
    have watchedEvaluates : Evaluates reader service.watched.settings body evaluation := evaluates
    refine ⟨answerBody_of_anonymous evaluates, ?_⟩
    rw [callsFor, answerBody_of_anonymous watchedEvaluates]
    rfl
  added evaluation user evaluates somebody := by
    subst somebody
    have watchedEvaluates : Evaluates reader service.watched.settings body evaluation := evaluates
    rw [callsFor, answerBody_of_user watchedEvaluates]
    rfl
  stored evaluation user store record evaluates somebody added := by
    subst somebody
    rw [answerBody_of_user evaluates, added]
    rfl
  failed evaluation user store fault evaluates somebody added := by
    subst somebody
    rw [answerBody_of_user evaluates, added]
    rfl
  watched := answerBody_watched service reader body user?
  onlyAdds other same := @answerBody_congr State keeper other service same reader body user?

/-- A store behind a poisoned lock is asked to add a product, and is blamed for not doing so; it is
not asked about a calculation that is nobody's, or one without a value. A store that works keeps the
product. -/
theorem answerBody_asksStore_poisonedLock :
    let closed : Service ClosedStore := ⟨{}, {}⟩
    let working : Service MemoryStore := ⟨{}, {}⟩
    let product := (EvaluationRequest.document ⟨"6*7", none⟩).compact
    let quotient := (EvaluationRequest.document ⟨"1/0", none⟩).compact
    closed.answerBody product (some "ada") =
        (closed, ⟨500, .fault "history store unavailable (poisoned lock)"⟩) ∧
      closed.callsFor .json product (some "ada") = [.add ⟨"ada", "6*7", "42", .degrees⟩] ∧
      closed.callsFor .json product none = [] ∧
      (closed.answerBody quotient (some "ada")).2.status = 400 ∧
      closed.callsFor .json quotient (some "ada") = [] ∧
      (working.answerBody product (some "ada")).2 = ⟨200, .evaluated ⟨"6*7", .degrees, 42.0⟩⟩ := by
  intro closed working product quotient
  have evaluates : Evaluates .json {} product ⟨"6*7", .degrees, 42.0⟩ :=
    ⟨⟨none, BodyReader.json_readsBack _, rfl⟩, by decide, Engine.evaluate_product⟩
  have refuses : Refuses .json {} quotient :=
    .inr ⟨_, _, BodyReader.json_readsBack _, .inr ⟨_, Engine.evaluate_quotientByZero⟩⟩
  have shown : Text.result 42.0 = "42" := by decide +kernel
  have adds := answerBody_asksStore closed .json product (some "ada")
  have rejects := answerBody_asksStore closed .json quotient (some "ada")
  have keeps := answerBody_asksStore working .json product (some "ada")
  refine ⟨adds.failed _ "ada" closed.store .unavailable evaluates rfl rfl, ?_,
    ((answerBody_asksStore closed .json product none).anonymous _ evaluates rfl).2,
    rejects.status_iff.mpr refuses, (rejects.refused refuses).2,
    congrArg Prod.snd (keeps.stored _ "ada" _ _ evaluates rfl rfl)⟩
  rw [adds.added _ "ada" evaluates rfl, shown]

end Service

end DeskCalculator
