/-
This file proves that a service keeps exactly the evaluations that succeeded.
Users call it directly or through requests, in any order, and the bodies of
requests are read in any way. What it returns for a call decides what it stores:
an evaluation that succeeds for a user is one more record of this user, a
removal takes all records of its user away, and every other call leaves the
store as it was. So the history of a user can be told from the calls and what
was returned for them.
-/

import DeskCalculator.Proofs.Composition
import DeskCalculator.Proofs.Documents
import DeskCalculator.Proofs.Isolation
import DeskCalculator.Proofs.Log

namespace DeskCalculator.Service

/-! ### Calls and outcomes -/

/-- The calls to a service: direct ones, and those that answer a request. -/
inductive Call where
  | evaluate (expression : String) (mode? : Option AngleMode) (user? : Option String)
  | history (user : String) (limit? : Option Nat)
  | clearHistory (user : String)
  | answerBody (body : String) (user? : Option String)
  | answerHistory (user : String) (query : HistoryQuery)
  | answerClear (user : String)

/-- What a service returns for a call. -/
inductive Outcome where
  | evaluated (result : Except ServiceFault Evaluation)
  | listed (result : Except ServiceFault (List Record))
  | cleared (result : Except ServiceFault Nat)
  | answered (answer : Answer)

/-- A service with these settings that keeps its records in a new store in memory. -/
def start (settings : Settings) : Service MemoryStore :=
  ⟨settings, {}⟩

/-- Carries a call out. -/
def carryOut (reader : BodyReader) (service : Service MemoryStore) :
    Call → Service MemoryStore × Outcome
  | .evaluate expression mode? user? =>
    ((service.evaluate expression mode? user?).1,
      .evaluated (service.evaluate expression mode? user?).2)
  | .history user limit? =>
    ((service.readHistory user limit?).1, .listed (service.readHistory user limit?).2)
  | .clearHistory user => ((service.clearHistory user).1, .cleared (service.clearHistory user).2)
  | .answerBody body user? =>
    ((service.answerBody body user? reader).1,
      .answered (service.answerBody body user? reader).2)
  | .answerHistory user query =>
    ((service.answerQuery user query).1, .answered (service.answerQuery user query).2)
  | .answerClear user => ((service.answerClear user).1, .answered (service.answerClear user).2)

/-- The service after calls that are carried out one after the other. -/
def after (reader : BodyReader) (service : Service MemoryStore) (calls : List Call) :
    Service MemoryStore :=
  calls.foldl (fun service call => (service.carryOut reader call).1) service

/-- The log of calls that are carried out one after the other: each call with its outcome, the
last one first, in front of an earlier log. -/
def log (reader : BodyReader) (service : Service MemoryStore)
    (earlier : List (Call × Outcome)) : List Call → List (Call × Outcome)
  | [] => earlier
  | call :: rest =>
    log reader (service.carryOut reader call).1 ((call, (service.carryOut reader call).2) :: earlier)
      rest

/-! ### Successes -/

/-- Whether a call removes the records of a user. -/
def Call.clears (user : String) : Call → Bool
  | clearHistory cleared => cleared == user
  | answerClear cleared => cleared == user
  | _ => false

/-- The request and the returned value of an evaluation that succeeded for a user. -/
def success? (reader : BodyReader) (user : String) :
    Call × Outcome → Option (EvaluationRequest × Float)
  | (.evaluate expression mode? (some caller), .evaluated (.ok evaluation)) =>
    if caller = user then some (⟨expression, mode?⟩, evaluation.value) else none
  | (.answerBody body (some caller), .answered ⟨_, .evaluated evaluation⟩) =>
    if caller = user then
      (reader body).toOption.map fun request => (request, evaluation.value)
    else none
  | _ => none

/-- The evaluations in a log that succeeded for a user since the last removal of the user's
records, the last one first. -/
def successes (reader : BodyReader) (user : String) (log : List (Call × Outcome)) :
    List (EvaluationRequest × Float) :=
  since (fun step => step.1.clears user) (success? reader user) log

/-- The mode in which a request is evaluated. -/
def effectiveMode (settings : Settings) (request : EvaluationRequest) : AngleMode :=
  request.mode?.getD settings.mode

/-- The entry of an evaluation that succeeded for a user. -/
def successEntry (settings : Settings) (user : String) (success : EvaluationRequest × Float) :
    Entry :=
  ⟨user, success.1.expression, Text.result success.2, effectiveMode settings success.1⟩

/-- Whether a call with its outcome only reads, refuses, or is made without a user. -/
def isIdle : Call × Outcome → Bool
  | (.evaluate _ _ none, _) => true
  | (.evaluate _ _ (some _), .evaluated (.error _)) => true
  | (.answerBody _ none, _) => true
  | (.answerBody _ (some _), .answered answer) => answer.status = 400
  | (.history .., _) => true
  | (.answerHistory .., _) => true
  | _ => false

/-! ### What each call returns and stores -/

/-- What the evaluation of a request comes to. -/
def evaluationOf (settings : Settings) (request : EvaluationRequest) : Except Fault Evaluation :=
  (settings.engine.evaluate request.expression (effectiveMode settings request)).map fun value =>
    ⟨request.expression, effectiveMode settings request, value⟩

/-- The answer to a body. -/
def bodyAnswer (reader : BodyReader) (settings : Settings) (body : String) : Answer :=
  match reader body with
  | .error reason? => .refused (.malformedBody reason?)
  | .ok request =>
    if request.expression.isEmpty then .refused .missingExpression
    else
      match evaluationOf settings request with
      | .ok evaluation => .granted (.evaluated evaluation)
      | .error fault => .failed (.calculation fault)

/-- The service with one more entry, if the evaluation has a user. -/
def withEntry (service : Service MemoryStore) (evaluation : Evaluation) :
    Option String → Service MemoryStore
  | none => service
  | some user => { service with store := (service.store.add (entryOf evaluation user)).1 }

theorem keep_eq (service : Service MemoryStore) (evaluation : Evaluation)
    (user? : Option String) :
    service.keep evaluation user? = (service.withEntry evaluation user?, .ok evaluation) := by
  cases user? <;> rfl

/-- A call to evaluate succeeds exactly when the engine finds a value. -/
theorem evaluate_cases (service : Service MemoryStore) (expression : String)
    (mode? : Option AngleMode) (user? : Option String) :
    (∃ evaluation, evaluationOf service.settings ⟨expression, mode?⟩ = .ok evaluation ∧
      service.evaluate expression mode? user? =
        (service.withEntry evaluation user?, .ok evaluation)) ∨
    ∃ fault, evaluationOf service.settings ⟨expression, mode?⟩ = .error fault ∧
      service.evaluate expression mode? user? = (service, .error (.calculation fault)) := by
  unfold evaluate evaluationOf effectiveMode
  dsimp only
  cases service.settings.engine.evaluate expression (mode?.getD service.settings.mode) with
  | error fault => exact .inr ⟨fault, rfl, rfl⟩
  | ok value => exact .inl ⟨_, rfl, keep_eq service _ user?⟩

theorem evaluate_snd (service : Service MemoryStore) (expression : String)
    (mode? : Option AngleMode) (user? : Option String) :
    (service.evaluate expression mode? user?).2 =
      (evaluationOf service.settings ⟨expression, mode?⟩).mapError .calculation := by
  obtain ⟨_, found, same⟩ | ⟨_, refused, same⟩ :=
    evaluate_cases service expression mode? user?
  · rw [found, same]
    rfl
  · rw [refused, same]
    rfl

theorem evaluationOf_eq_ok {settings : Settings} {request : EvaluationRequest}
    {evaluation : Evaluation} (found : evaluationOf settings request = .ok evaluation) :
    evaluation = ⟨request.expression, effectiveMode settings request, evaluation.value⟩ := by
  unfold evaluationOf at found
  cases evaluated : settings.engine.evaluate request.expression
      (effectiveMode settings request) with
  | error fault =>
    rw [evaluated] at found
    cases found
  | ok value =>
    rw [evaluated] at found
    cases found
    rfl

/-- A body is answered with an evaluation, or refused. -/
theorem answerBody_cases (reader : BodyReader) (service : Service MemoryStore) (body : String)
    (user? : Option String) :
    (∃ request evaluation, reader body = .ok request ∧
      evaluationOf service.settings request = .ok evaluation ∧
      bodyAnswer reader service.settings body = .granted (.evaluated evaluation) ∧
      service.answerBody body user? reader =
        (service.withEntry evaluation user?, .granted (.evaluated evaluation))) ∨
    ∃ message, bodyAnswer reader service.settings body = ⟨400, .fault message⟩ ∧
      service.answerBody body user? reader = (service, ⟨400, .fault message⟩) := by
  unfold answerBody bodyAnswer
  cases read : reader body with
  | error reason? => exact .inr ⟨_, rfl, rfl⟩
  | ok request =>
    dsimp only
    unfold answerEvaluation
    cases request.expression.isEmpty with
    | true => exact .inr ⟨_, rfl, rfl⟩
    | false =>
      obtain ⟨evaluation, found, same⟩ | ⟨fault, missing, same⟩ :=
        evaluate_cases service request.expression request.mode? user?
      · rw [same]
        refine .inl ⟨request, evaluation, rfl, found, ?_, rfl⟩
        rw [show evaluationOf service.settings request = .ok evaluation from found]
        rfl
      · rw [same, show evaluationOf service.settings request = .error fault from missing]
        exact .inr ⟨_, rfl, rfl⟩

theorem answerBody_snd (reader : BodyReader) (service : Service MemoryStore) (body : String)
    (user? : Option String) :
    (service.answerBody body user? reader).2 = bodyAnswer reader service.settings body := by
  obtain ⟨_, _, _, _, answered, same⟩ | ⟨_, answered, same⟩ :=
    answerBody_cases reader service body user?
  · rw [answered, same]
  · rw [answered, same]

/-- A request for the history leaves the service as it was, whether it is granted or refused. -/
theorem answerQuery_fst (service : Service MemoryStore) (user : String) (query : HistoryQuery) :
    (service.answerQuery user query).1 = service := by
  unfold answerQuery
  cases query.limit <;> rfl

theorem carryOut_settings (reader : BodyReader) (service : Service MemoryStore) (call : Call) :
    (service.carryOut reader call).1.settings = service.settings := by
  have withEntry_settings : ∀ evaluation user?,
      (service.withEntry evaluation user?).settings = service.settings := by
    intro evaluation user?
    cases user? <;> rfl
  cases call with
  | evaluate expression mode? user? =>
    show (service.evaluate expression mode? user?).1.settings = service.settings
    obtain ⟨_, _, same⟩ | ⟨_, _, same⟩ := evaluate_cases service expression mode? user?
    · rw [same]
      exact withEntry_settings _ _
    · rw [same]
  | history user limit? => rfl
  | clearHistory user => rfl
  | answerBody body user? =>
    show (service.answerBody body user? reader).1.settings = service.settings
    obtain ⟨_, _, _, _, _, same⟩ | ⟨_, _, same⟩ := answerBody_cases reader service body user?
    · rw [same]
      exact withEntry_settings _ _
    · rw [same]
  | answerHistory user query =>
    show (service.answerQuery user query).1.settings = service.settings
    rw [answerQuery_fst]
  | answerClear user => rfl

/-! ### What each call stores -/

theorem entriesOf_withEntry (service : Service MemoryStore) (evaluation : Evaluation)
    (user? : Option String) (user : String) :
    (service.withEntry evaluation user?).store.entriesOf user =
      (if user? = some user then [entryOf evaluation user] else []) ++
        service.store.entriesOf user := by
  cases user? with
  | none => rfl
  | some caller =>
    by_cases own : caller = user
    · subst own
      rw [if_pos rfl]
      exact service.store.entriesOf_add_self (entryOf evaluation caller)
    · rw [if_neg (by simpa using own)]
      exact MemoryStore.entriesOf_add_of_ne own

theorem entriesOf_cleared (service : Service MemoryStore) (cleared user : String) :
    (service.clearHistory cleared).1.store.entriesOf user =
      if cleared == user then [] else service.store.entriesOf user := by
  by_cases own : cleared = user
  · subst own
    rw [beq_self_eq_true, if_pos rfl]
    exact service.store.entriesOf_clear_self cleared
  · rw [if_neg (by simpa using own)]
    exact congrArg (List.map Record.toEntry) (MemoryStore.recordsOf_clear_of_ne own)

/-- The entries of a user after a call: none if the call removes them, and otherwise one more if
it is a success of the user. -/
theorem entriesOf_carryOut (reader : BodyReader) (service : Service MemoryStore) (call : Call)
    (user : String) :
    (service.carryOut reader call).1.store.entriesOf user =
      if call.clears user then []
      else
        (success? reader user (call, (service.carryOut reader call).2)).toList.map
            (successEntry service.settings user) ++
          service.store.entriesOf user := by
  cases call with
  | evaluate expression mode? user? =>
    show (service.evaluate expression mode? user?).1.store.entriesOf user =
      (success? reader user (.evaluate expression mode? user?,
        .evaluated (service.evaluate expression mode? user?).2)).toList.map _ ++ _
    obtain ⟨evaluation, found, same⟩ | ⟨fault, _, same⟩ :=
      evaluate_cases service expression mode? user?
    · rw [same, entriesOf_withEntry, evaluationOf_eq_ok found]
      cases user? with
      | none => rfl
      | some caller =>
        by_cases own : caller = user
        · subst own
          simp [success?, entryOf, successEntry]
        · simp [success?, own]
    · rw [same]
      cases user? <;> rfl
  | history user limit? => rfl
  | clearHistory cleared => exact entriesOf_cleared service cleared user
  | answerBody body user? =>
    show (service.answerBody body user? reader).1.store.entriesOf user =
      (success? reader user (.answerBody body user?,
        .answered (service.answerBody body user? reader).2)).toList.map _ ++ _
    obtain ⟨request, evaluation, read, found, _, same⟩ | ⟨message, _, same⟩ :=
      answerBody_cases reader service body user?
    · rw [same, entriesOf_withEntry, evaluationOf_eq_ok found]
      cases user? with
      | none => rfl
      | some caller =>
        by_cases own : caller = user
        · subst own
          simp [success?, entryOf, successEntry, Answer.granted, read, Except.toOption]
        · simp [success?, Answer.granted, own]
    · rw [same]
      cases user? <;> rfl
  | answerHistory caller query =>
    show (service.answerQuery caller query).1.store.entriesOf user = _
    rw [answerQuery_fst]
    rfl
  | answerClear cleared => exact entriesOf_cleared service cleared user

/-- Reads, refusals and calls without a user leave the service as it was. -/
theorem carryOut_of_isIdle {reader : BodyReader} {service : Service MemoryStore} {call : Call}
    (idle : isIdle (call, (service.carryOut reader call).2) = true) :
    (service.carryOut reader call).1 = service := by
  cases call with
  | evaluate expression mode? user? =>
    show (service.evaluate expression mode? user?).1 = service
    replace idle : isIdle (.evaluate expression mode? user?,
      .evaluated (service.evaluate expression mode? user?).2) = true := idle
    obtain ⟨evaluation, _, same⟩ | ⟨fault, _, same⟩ :=
      evaluate_cases service expression mode? user?
    · rw [same] at idle ⊢
      cases user? with
      | none => rfl
      | some caller => cases idle
    · rw [same]
  | history user limit? => rfl
  | clearHistory user => cases idle
  | answerBody body user? =>
    show (service.answerBody body user? reader).1 = service
    replace idle : isIdle (.answerBody body user?,
      .answered (service.answerBody body user? reader).2) = true := idle
    obtain ⟨_, evaluation, _, _, _, same⟩ | ⟨message, _, same⟩ :=
      answerBody_cases reader service body user?
    · rw [same] at idle ⊢
      cases user? with
      | none => rfl
      | some caller => cases idle
    · rw [same]
  | answerHistory user query => exact answerQuery_fst service user query
  | answerClear user => cases idle

/-! ### Runs of calls -/

/-- The store holds the successes of the log, for every user. -/
structure Keeps (reader : BodyReader) (settings : Settings) (log : List (Call × Outcome))
    (service : Service MemoryStore) : Prop where
  settings_eq : service.settings = settings
  entries : ∀ user, service.store.entriesOf user =
    (successes reader user log).map (successEntry settings user)

theorem keeps_start (reader : BodyReader) (settings : Settings) :
    Keeps reader settings [] (start settings) where
  settings_eq := rfl
  entries _ := rfl

section

variable {reader : BodyReader} {settings : Settings} {earlier log : List (Call × Outcome)}
  {service : Service MemoryStore}

theorem Keeps.carryOut (keeps : Keeps reader settings log service) (call : Call) :
    Keeps reader settings ((call, (service.carryOut reader call).2) :: log)
      (service.carryOut reader call).1 where
  settings_eq := (carryOut_settings reader service call).trans keeps.settings_eq
  entries user := by
    rw [entriesOf_carryOut, keeps.settings_eq, keeps.entries user, successes, successes, since_cons]
    split
    · rfl
    · rw [List.map_append]

theorem Keeps.after (keeps : Keeps reader settings earlier service) (calls : List Call) :
    Keeps reader settings (service.log reader earlier calls) (service.after reader calls) := by
  induction calls generalizing service earlier with
  | nil => exact keeps
  | cons call rest inductionHypothesis => exact inductionHypothesis (keeps.carryOut call)

/-! ### The persisted history -/

/-- Everything that users can see of the history is told by the log. -/
structure Reflects (reader : BodyReader) (settings : Settings) (log : List (Call × Outcome))
    (service : Service MemoryStore) : Prop where
  /-- The history holds the last successes of the user: as many as asked for or as the settings
  say, moved between one and a hundred. -/
  history : ∀ user limit?, ∃ records, service.history user limit? = .ok records ∧
    records.map Record.toEntry =
      ((successes reader user log).take (max 1 (min (limit?.getD settings.page) 100))).map
        (successEntry settings user)
  /-- An evaluation returns the value that the engine finds, or its fault. -/
  evaluate : ∀ expression mode? user?, (service.evaluate expression mode? user?).2 =
    (evaluationOf settings ⟨expression, mode?⟩).mapError .calculation
  /-- A body is answered with the evaluation of its request, or refused. -/
  answerBody : ∀ body user?,
    (service.answerBody body user? reader).2 = bodyAnswer reader settings body
  /-- Evaluations without a user, failed ones, refused bodies and reads change nothing. -/
  idle : ∀ call, isIdle (call, (service.carryOut reader call).2) = true →
    (service.carryOut reader call).1 = service
  /-- A request for a page out of bounds is refused. -/
  outOfBounds : ∀ user (limit : Int), ¬(1 ≤ limit ∧ limit ≤ 100) →
    (service.answerHistory user ⟨some limit⟩).status = 400
  /-- Any other request for a page is answered with the history. -/
  inBounds : ∀ user (limit : Nat), 1 ≤ limit → limit ≤ 100 →
    ∃ records, service.history user (some limit) = .ok records ∧
      service.answerHistory user ⟨some limit⟩ = ⟨200, .history records⟩
  /-- A removal tells how many successes there were. -/
  clearHistory : ∀ user,
    (service.clearHistory user).2 = .ok (successes reader user log).length

theorem Keeps.reflects (keeps : Keeps reader settings log service) :
    Reflects reader settings log service where
  history user limit? := by
    refine ⟨_, rfl, ?_⟩
    rw [MemoryStore.entriesOf_list, keeps.entries, List.map_take, keeps.settings_eq]
    rfl
  evaluate expression mode? user? := by
    rw [evaluate_snd, keeps.settings_eq]
  answerBody body user? := by
    rw [answerBody_snd, keeps.settings_eq]
  idle _ := carryOut_of_isIdle
  outOfBounds user limit outside := by
    have refused : (⟨some limit⟩ : HistoryQuery).limit = .error .limitOutOfBounds :=
      if_neg outside
    rw [answerHistory, answerQuery, refused]
    rfl
  inBounds user limit low high := by
    have admitted : (⟨some limit⟩ : HistoryQuery).limit = .ok limit :=
      if_pos ⟨Int.ofNat_le.mpr low, Int.ofNat_le.mpr high⟩
    refine ⟨_, rfl, ?_⟩
    rw [answerHistory, answerQuery, admitted]
    rfl
  clearHistory user := by
    show Except.ok (service.store.clear user).2 = _
    rw [MemoryStore.clear_snd_eq_length, keeps.entries, List.length_map]

end

/-- However bodies are read: after any calls by any users the history of every user consists of the
evaluations that succeeded for the user since the last removal, and no other call has left a
trace. -/
theorem history_reflects_log (reader : BodyReader) (settings : Settings) (calls : List Call) :
    Reflects reader settings ((start settings).log reader [] calls)
      ((start settings).after reader calls) :=
  ((keeps_start reader settings).after calls).reflects

/-- Ada calculates twice, but only once with a value; Bob sends a calculation as a body. -/
def threeCalculations : List Call :=
  [.evaluate "6*7" none (some "ada"), .evaluate "1/0" none (some "ada"),
   .answerBody (EvaluationRequest.document ⟨"6*7", none⟩).compact (some "bob")]

/-- The log of Ada and Bob, the latest call first. -/
theorem log_threeCalculations : (start {}).log .json [] threeCalculations =
    [(.answerBody (EvaluationRequest.document ⟨"6*7", none⟩).compact (some "bob"),
        .answered ⟨200, .evaluated ⟨"6*7", .degrees, 42.0⟩⟩),
     (.evaluate "1/0" none (some "ada"),
        .evaluated (.error (.calculation (.math .divisionByZero)))),
     (.evaluate "6*7" none (some "ada"), .evaluated (.ok ⟨"6*7", .degrees, 42.0⟩))] := by
  have visible : "6*7".isEmpty = false := rfl
  have read := BodyReader.json_readsBack ⟨"6*7", none⟩
  simp only [threeCalculations, log, carryOut, start, evaluate, Option.getD_none,
    Engine.evaluate_product, Engine.evaluate_quotientByZero, keep_eq, withEntry, answerBody, read,
    answerEvaluation, visible, Bool.false_eq_true, if_false, Answer.granted]

theorem successEntry_product (user : String) :
    successEntry {} user (⟨"6*7", none⟩, 42.0) = ⟨user, "6*7", "42", .degrees⟩ := by
  rw [successEntry, show Text.result 42.0 = "42" by decide +kernel]
  rfl

/-- One calculation is kept for either of them. Once Ada removes hers, only the one of Bob is
left. -/
theorem history_reflects_log_removal :
    let kept := (start {}).after .json threeCalculations
    let left := (start {}).after .json (threeCalculations ++ [.clearHistory "ada"])
    (∃ records, kept.history "ada" none = .ok records ∧
      records.map Record.toEntry = [⟨"ada", "6*7", "42", .degrees⟩]) ∧
    (kept.clearHistory "ada").2 = .ok 1 ∧ left.history "ada" none = .ok [] ∧
    ∃ records, left.history "bob" none = .ok records ∧
      records.map Record.toEntry = [⟨"bob", "6*7", "42", .degrees⟩] := by
  obtain ⟨removal, logged_removal⟩ : ∃ outcome,
      (start {}).log .json [] (threeCalculations ++ [.clearHistory "ada"]) =
        (.clearHistory "ada", outcome) :: (start {}).log .json [] threeCalculations := ⟨_, rfl⟩
  have hers : successes .json "ada" ((start {}).log .json [] threeCalculations) =
      [(⟨"6*7", none⟩, 42.0)] := by
    rw [log_threeCalculations]
    simp [successes, since, Call.clears, success?, List.filterMap_cons]
  have his : successes .json "bob" ((start {}).log .json []
      (threeCalculations ++ [.clearHistory "ada"])) = [(⟨"6*7", none⟩, 42.0)] := by
    have read := BodyReader.json_readsBack ⟨"6*7", none⟩
    rw [logged_removal, log_threeCalculations]
    simp [successes, since, Call.clears, success?, List.filterMap_cons, read, Except.toOption]
  have nothing : successes .json "ada" ((start {}).log .json []
      (threeCalculations ++ [.clearHistory "ada"])) = [] := by
    rw [logged_removal]
    rfl
  intro kept left
  have told := history_reflects_log .json {} threeCalculations
  have toldLater := history_reflects_log .json {} (threeCalculations ++ [.clearHistory "ada"])
  obtain ⟨first, first_listed, first_eq⟩ := told.history "ada" none
  obtain ⟨second, second_listed, second_eq⟩ := toldLater.history "ada" none
  obtain ⟨third, third_listed, third_eq⟩ := toldLater.history "bob" none
  rw [hers] at first_eq
  rw [nothing] at second_eq
  rw [his] at third_eq
  refine ⟨⟨first, first_listed, ?_⟩, ?_, ?_, third, third_listed, ?_⟩
  · rw [first_eq, ← successEntry_product "ada"]
    rfl
  · exact (told.clearHistory "ada").trans (by rw [hers]; rfl)
  · rw [second_listed, List.map_eq_nil_iff.mp second_eq]
  · rw [third_eq, ← successEntry_product "bob"]
    rfl

end DeskCalculator.Service
