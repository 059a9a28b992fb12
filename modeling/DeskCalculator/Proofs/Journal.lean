/-
This file proves that a session shows and remembers what was done with it. A
typed line comes to a few actions, so every run of a session is a run of
actions. The journal of a run lists these actions, each with the session it
found, the last one first. What the session shows, what it remembers and
whether it shows a fault can be told from its journal.
-/

import DeskCalculator.Proofs.Composition
import DeskCalculator.Proofs.Log
import DeskCalculator.Session.Command

namespace DeskCalculator

/-! ### Texts -/

theorem Text.append_ne_empty_of_left {front : String} (nonempty : front ≠ "") (back : String) :
    front ++ back ≠ "" := by
  intro empty
  exact nonempty (String.append_eq_empty_iff.mp empty).1

theorem Fault.message_ne_empty (fault : Fault) : fault.message ≠ "" := by
  have behind : ∀ (front : String) (position : Nat), front ++ atPosition position ≠ "" := by
    intro front position empty
    exact Text.append_ne_empty_of_left (by decide) _ (String.append_eq_empty_iff.mp empty).2
  cases fault with
  | unknownWord text position => exact behind _ position
  | grammar cause position => exact behind _ position
  | tooDeep limit position => exact behind _ position
  | math cause =>
    show cause.message ≠ ""
    cases cause with
    | outsideUnit function argument =>
      exact fun empty => absurd (String.append_eq_empty_iff.mp empty).2 (by decide)
    | factorialOverflow argument =>
      exact fun empty => absurd (String.append_eq_empty_iff.mp empty).2 (by decide)
    | fractionalFactorial argument => exact Text.append_ne_empty_of_left (by decide) _
    | negativeFactorial argument => exact Text.append_ne_empty_of_left (by decide) _
    | divisionByZero => decide
    | negativeRoot => decide
    | nonPositiveLog => decide
    | nonPositiveNaturalLog => decide

/-- A new display shows zero. -/
theorem Text.result_zero : Text.result 0.0 = "0" := by
  decide

namespace Session

/-- The text that is shown for the fault of the last attempt; without a fault it is empty. -/
def faultText (session : Session) : String :=
  (session.fault?.map Fault.message).getD ""

theorem faultText_ne_empty_iff (session : Session) :
    session.faultText ≠ "" ↔ session.fault?.isSome := by
  unfold faultText
  cases session.fault? with
  | none => exact iff_of_false (absurd rfl) Bool.false_ne_true
  | some fault => exact iff_of_true fault.message_ne_empty rfl

/-! ### Actions and lines -/

/-- What can be done with a session, apart from typing a line. -/
inductive Action where
  | append (text : String)
  | assign (text : String)
  | deleteLast
  | clear
  | setMode (mode : AngleMode)
  | evaluate
  | restore (index : Nat)
  | clearHistory
  | memoryClear
  | memoryRecall
  | memoryAdd
  | memorySubtract
  | memoryStore

/-- What a session can be given: an action, or a line. -/
inductive Input where
  | act (action : Action)
  | line (text : String)

/-- Carries out an action. -/
def perform (session : Session) : Action → Session
  | .append text => session.append text
  | .assign text => session.assign text
  | .deleteLast => session.deleteLast
  | .clear => session.clear
  | .setMode mode => session.setMode mode
  | .evaluate => session.evaluate.1
  | .restore index => (session.restore index).1
  | .clearHistory => session.clearHistory
  | .memoryClear => session.memoryClear
  | .memoryRecall => session.memoryRecall
  | .memoryAdd => session.memoryAdd
  | .memorySubtract => session.memorySubtract
  | .memoryStore => session.memoryStore

/-- Carries out an action or a line. -/
def receive (session : Session) : Input → Session
  | .act action => session.perform action
  | .line text => (session.readLine text).1

/-- The session after inputs that are received one after the other. -/
def after (session : Session) (inputs : List Input) : Session :=
  inputs.foldl receive session

/-- The actions of a command. To bring the memory back, a command empties the entry first. -/
def actionsOfCommand : Command → List Action
  | .setMode mode => [.setMode mode]
  | .restore index? => (index?.map .restore).toList
  | .clear => [.clear]
  | .clearHistory => [.clearHistory]
  | .memoryClear => [.memoryClear]
  | .memoryRecall => [.assign "", .memoryRecall]
  | .memoryAdd => [.memoryAdd]
  | .memorySubtract => [.memorySubtract]
  | .memoryStore => [.memoryStore]
  | .quit | .showHistory | .help | .unknown _ => []

/-- The actions of an input: an expression in a line is assigned to the entry and evaluated. -/
def Input.actions : Input → List Action
  | act action => [action]
  | line text =>
    match text.toList with
    | [] => []
    | ':' :: command => actionsOfCommand (Command.read (trimText (String.ofList command)))
    | _ => [.assign text, .evaluate]

theorem execute_fst (session : Session) (command : Command) :
    (session.execute command).1 = (actionsOfCommand command).foldl perform session := by
  cases command with
  | restore index? =>
    cases index? with
    | none => rfl
    | some index =>
      show (session.execute (.restore (some index))).1 = (session.restore index).1
      unfold execute restore
      dsimp only [Option.map_some]
      cases session.history[index]? <;> rfl
  | _ => rfl

theorem evaluateLine_fst (session : Session) (line : String) :
    (session.evaluateLine line).1 = (session.assign line).evaluate.1 := by
  unfold evaluateLine
  rcases (session.assign line).evaluate with ⟨evaluated, _ | _⟩ <;> rfl

theorem receive_eq_foldl (session : Session) (input : Input) :
    session.receive input = input.actions.foldl perform session := by
  cases input with
  | act action => rfl
  | line text =>
    show (session.readLine text).1 = (Input.line text).actions.foldl perform session
    unfold readLine
    split
    case h_1 empty => simp only [Input.actions, empty, List.foldl_nil]
    case h_2 command typed =>
      simp only [Input.actions, typed]
      exact session.execute_fst _
    case h_3 noCommand nonempty =>
      simp only [Input.actions]
      exact session.evaluateLine_fst text

theorem after_eq_foldl (session : Session) (inputs : List Input) :
    session.after inputs = (inputs.flatMap Input.actions).foldl perform session := by
  induction inputs generalizing session with
  | nil => rfl
  | cons input rest inductionHypothesis =>
    rw [List.flatMap_cons, List.foldl_append, ← receive_eq_foldl]
    exact inductionHypothesis (session.receive input)

/-! ### What an action comes to -/

/-- What an action comes to, as far as the display, its fault and the history are concerned. -/
inductive Event where
  | nothing
  | edited
  | cleared
  | calculated (calculation : Calculation)
  | failed (fault : Fault)
  | restored (calculation : Calculation)
  | forgotten

/-- What an action comes to, told from its answer. -/
def eventOf (session : Session) : Action → Event
  | .append _ | .deleteLast | .memoryRecall => .edited
  | .clear => .cleared
  | .evaluate =>
    match session.evaluate.2 with
    | .ok none => .nothing
    | .ok (some value) => .calculated ⟨session.entry, value, Text.result value⟩
    | .error fault => .failed fault
  | .restore index =>
    match session.history[index]?, (session.restore index).2 with
    | some calculation, true => .restored calculation
    | _, _ => .nothing
  | .clearHistory => .forgotten
  | .assign _ | .setMode _ | .memoryClear | .memoryAdd | .memorySubtract | .memoryStore => .nothing

namespace Event

/-- The value that is set: the one that is calculated or brought back, or zero where the display
is cleared. -/
def value? : Event → Option Float
  | calculated calculation => some calculation.value
  | restored calculation => some calculation.value
  | cleared => some 0.0
  | _ => none

/-- The calculation that is made. -/
def calculation? : Event → Option Calculation
  | calculated calculation => some calculation
  | _ => none

/-- Whether a fault is taken off the display. -/
def relieves : Event → Bool
  | edited | cleared | calculated _ | restored _ => true
  | _ => false

/-- Whether the history is emptied. -/
def forgets : Event → Bool
  | forgotten => true
  | _ => false

/-- The fault of an attempt that failed. -/
def fault? : Event → Option Fault
  | failed fault => some fault
  | _ => none

/-- What is left of a session on the display and in the history. -/
def applyTo (session : Session) : Event → Session
  | nothing => session
  | edited => { session with fault? := none }
  | cleared => { session with shown := "0", value := 0.0, fault? := none }
  | calculated calculation =>
    { session with
      shown := calculation.shown
      value := calculation.value
      fault? := none
      history := (calculation :: session.history).take sessionCapacity }
  | failed fault => { session with fault? := some fault }
  | restored calculation =>
    { session with shown := calculation.shown, value := calculation.value, fault? := none }
  | forgotten => { session with history := [] }

theorem applyTo_engine (session : Session) (event : Event) :
    (event.applyTo session).engine = session.engine := by
  cases event <;> rfl

theorem applyTo_value (session : Session) (event : Event) :
    (event.applyTo session).value = event.value?.getD session.value := by
  cases event <;> rfl

theorem applyTo_history (session : Session) (event : Event) :
    (event.applyTo session).history =
      if event.forgets then []
      else event.calculation?.elim session.history fun calculation =>
        (calculation :: session.history).take sessionCapacity := by
  cases event <;> rfl

theorem applyTo_fault? (session : Session) (event : Event) :
    (event.applyTo session).fault? =
      if event.relieves then none else event.fault?.or session.fault? := by
  cases event <;> rfl

end Event

theorem evaluate_of_ok {session : Session} {value : Float}
    (visible : isBlankText session.entry = false)
    (found : session.engine.evaluate session.entry session.mode = .ok value) :
    session.evaluate = (session.record value, .ok (some value)) := by
  rw [evaluate, visible, found]
  rfl

theorem evaluate_of_error {session : Session} {fault : Fault}
    (visible : isBlankText session.entry = false)
    (refused : session.engine.evaluate session.entry session.mode = .error fault) :
    session.evaluate = ({ session with fault? := some fault }, .error fault) := by
  rw [evaluate, visible, refused]
  rfl

/-- A blank entry changes nothing, and any other one has a value or a fault. -/
theorem evaluate_cases (session : Session) :
    (isBlankText session.entry = true ∧ session.evaluate = (session, .ok none)) ∨
    (isBlankText session.entry = false ∧ ∃ value,
      session.engine.evaluate session.entry session.mode = .ok value ∧
      session.evaluate = (session.record value, .ok (some value))) ∨
    (isBlankText session.entry = false ∧ ∃ fault,
      session.engine.evaluate session.entry session.mode = .error fault ∧
      session.evaluate = ({ session with fault? := some fault }, .error fault)) := by
  cases visible : isBlankText session.entry with
  | true => exact .inl ⟨rfl, by rw [evaluate, visible, if_pos rfl]⟩
  | false =>
    cases evaluated : session.engine.evaluate session.entry session.mode with
    | ok value => exact .inr (.inl ⟨rfl, value, rfl, evaluate_of_ok visible evaluated⟩)
    | error fault => exact .inr (.inr ⟨rfl, fault, rfl, evaluate_of_error visible evaluated⟩)

/-- A place in the history is brought back, and any other one changes nothing. -/
theorem restore_cases (session : Session) (index : Nat) :
    (session.history[index]? = none ∧ session.restore index = (session, false)) ∨
    ∃ calculation, session.history[index]? = some calculation ∧
      session.restore index =
        ({ session with
            entry := calculation.entry
            shown := calculation.shown
            value := calculation.value
            fault? := none }, true) := by
  unfold restore
  cases session.history[index]? with
  | none => exact .inl ⟨rfl, rfl⟩
  | some calculation => exact .inr ⟨calculation, rfl, rfl⟩

/-- An action does to the display and to the history what it comes to; apart from them it changes
the entry, the mode and the memory only. -/
theorem perform_eq (session : Session) (action : Action) :
    ∃ entry mode memory, session.perform action =
      { (session.eventOf action).applyTo session with entry, mode, memory } := by
  cases action with
  | evaluate =>
    simp only [perform, eventOf]
    obtain ⟨_, same⟩ | ⟨_, value, _, same⟩ | ⟨_, fault, _, same⟩ := session.evaluate_cases
    · rw [same]
      exact ⟨_, _, _, rfl⟩
    · rw [same]
      exact ⟨_, _, _, rfl⟩
    · rw [same]
      exact ⟨_, _, _, rfl⟩
  | restore index =>
    simp only [perform, eventOf]
    obtain ⟨missing, same⟩ | ⟨calculation, known, same⟩ := session.restore_cases index
    · rw [missing, same]
      exact ⟨_, _, _, rfl⟩
    · rw [known, same]
      exact ⟨_, _, _, rfl⟩
  | _ => exact ⟨_, _, _, rfl⟩

theorem eventOf_of_error {session : Session} {fault : Fault}
    (visible : isBlankText session.entry = false)
    (refused : session.engine.evaluate session.entry session.mode = .error fault) :
    session.eventOf .evaluate = .failed fault := by
  rw [eventOf, evaluate_of_error visible refused]

/-- A calculation is made of an entry that is not blank and has a value. -/
theorem eventOf_eq_calculated_iff {session : Session} {action : Action}
    {calculation : Calculation} :
    session.eventOf action = .calculated calculation ↔
      action = .evaluate ∧ isBlankText session.entry = false ∧
        session.engine.evaluate session.entry session.mode = .ok calculation.value ∧
        calculation.entry = session.entry ∧
        calculation.shown = Text.result calculation.value := by
  cases action with
  | evaluate =>
    simp only [eventOf]
    obtain ⟨blank, same⟩ | ⟨visible, value, evaluated, same⟩ | ⟨visible, fault, evaluated, same⟩ :=
      session.evaluate_cases
    · rw [same, blank]
      exact iff_of_false nofun nofun
    · rw [same, evaluated]
      constructor
      · rintro ⟨⟩
        exact ⟨trivial, visible, rfl, rfl, rfl⟩
      · rintro ⟨_, _, sameValue, sameEntry, sameShown⟩
        obtain ⟨entry, _, shown⟩ := calculation
        cases sameValue
        simp only [Event.calculated.injEq, Calculation.mk.injEq]
        exact ⟨sameEntry.symm, trivial, sameShown.symm⟩
    · rw [same, evaluated]
      exact iff_of_false nofun nofun
  | restore index =>
    refine iff_of_false ?_ nofun
    simp only [eventOf]
    obtain ⟨missing, same⟩ | ⟨_, known, same⟩ := session.restore_cases index
    · rw [missing, same]
      exact nofun
    · rw [known, same]
      exact nofun
  | _ => exact iff_of_false nofun nofun

theorem mem_history_of_eventOf_eq_restored {session : Session} {action : Action}
    {calculation : Calculation} (restored : session.eventOf action = .restored calculation) :
    calculation ∈ session.history := by
  cases action with
  | evaluate =>
    simp only [eventOf] at restored
    split at restored <;> cases restored
  | restore index =>
    simp only [eventOf] at restored
    split at restored
    case h_1 known _ =>
      cases restored
      exact List.mem_of_getElem? known
    case h_2 => cases restored
  | _ => cases restored

/-! ### Journals -/

/-- An action and the session that it found. -/
structure Step where
  found : Session
  action : Action

/-- What a step came to. -/
def Step.event (step : Step) : Event :=
  step.found.eventOf step.action

/-- The journal of actions that are carried out one after the other, the last one first, in front
of an earlier journal. -/
def journal (session : Session) (earlier : List Step) : List Action → List Step
  | [] => earlier
  | action :: rest => (session.perform action).journal (⟨session, action⟩ :: earlier) rest

/-- The calculations of a journal since the history was last emptied, the last one first. -/
def calculations (journal : List Step) : List Calculation :=
  since (fun step => step.event.forgets) (fun step => step.event.calculation?) journal

/-- The faults of a journal that were not taken off the display, the last one first. -/
def faults (journal : List Step) : List Fault :=
  since (fun step => step.event.relieves) (fun step => step.event.fault?) journal

theorem Event.relieves_of_fault? {event : Event} (failed : event.fault?.isSome) :
    event.relieves = false := by
  cases event with
  | failed fault => rfl
  | _ => cases failed

/-! ### Runs -/

/-- The display, its fault and the history follow the journal. -/
structure Follows (settings : Settings) (journal : List Step) (session : Session) : Prop where
  engine_eq : session.engine = settings.engine
  engines_eq : ∀ step ∈ journal, step.found.engine = settings.engine
  value_eq : session.value = (journal.findSome? fun step => step.event.value?).getD 0.0
  shown_eq : session.shown = Text.result session.value
  history_eq : session.history = (calculations journal).take sessionCapacity
  fault?_eq : session.fault? = (faults journal).head?

theorem follows_start (settings : Settings) : Follows settings [] (start settings) where
  engine_eq := rfl
  engines_eq := List.forall_mem_nil _
  value_eq := rfl
  shown_eq := by
    show "0" = Text.result 0.0
    rw [Text.result_zero]
  history_eq := rfl
  fault?_eq := rfl

/-- Every calculation of the history shows its value. -/
theorem Follows.shown_of_mem {settings : Settings} {journal : List Step} {session : Session}
    (follows : Follows settings journal session) {calculation : Calculation}
    (known : calculation ∈ session.history) :
    calculation.shown = Text.result calculation.value := by
  rw [follows.history_eq] at known
  obtain ⟨step, _, made⟩ := exists_of_mem_since (List.mem_of_mem_take known)
  have made : step.event = .calculated calculation := by
    cases event : step.event with
    | calculated other => rw [event] at made; cases made; rfl
    | _ => rw [event] at made; cases made
  exact (eventOf_eq_calculated_iff.mp made).2.2.2.2

/-- One more action is followed by its step in the journal. -/
theorem Follows.perform {settings : Settings} {journal : List Step} {session : Session}
    (follows : Follows settings journal session) (action : Action) :
    Follows settings (⟨session, action⟩ :: journal) (session.perform action) := by
  obtain ⟨_, _, _, same⟩ := session.perform_eq action
  have event_eq : (⟨session, action⟩ : Step).event = session.eventOf action := rfl
  rw [same]
  constructor
  case engine_eq =>
    exact (Event.applyTo_engine session _).trans follows.engine_eq
  case engines_eq =>
    exact List.forall_mem_cons.mpr ⟨follows.engine_eq, follows.engines_eq⟩
  case value_eq =>
    refine (Event.applyTo_value session _).trans ?_
    rw [List.findSome?_cons, event_eq, follows.value_eq]
    cases (session.eventOf action).value? <;> rfl
  case shown_eq =>
    show (Event.applyTo session _).shown = Text.result (Event.applyTo session _).value
    cases event : session.eventOf action with
    | calculated calculation => exact (eventOf_eq_calculated_iff.mp event).2.2.2.2
    | restored calculation =>
      exact follows.shown_of_mem (mem_history_of_eventOf_eq_restored event)
    | cleared =>
      show "0" = Text.result 0.0
      rw [Text.result_zero]
    | _ => exact follows.shown_eq
  case history_eq =>
    refine (Event.applyTo_history session _).trans ?_
    rw [follows.history_eq, calculations, calculations, since_cons, event_eq]
    cases (session.eventOf action).forgets with
    | true => rfl
    | false =>
      cases (session.eventOf action).calculation? with
      | none => rfl
      | some calculation => simp [sessionCapacity, List.take_take]
  case fault?_eq =>
    refine (Event.applyTo_fault? session _).trans ?_
    rw [follows.fault?_eq, faults, faults, since_cons, event_eq]
    cases (session.eventOf action).relieves with
    | true => rfl
    | false => cases (session.eventOf action).fault? <;> rfl

theorem Follows.foldl_perform {settings : Settings} {earlier : List Step} {session : Session}
    (follows : Follows settings earlier session) (actions : List Action) :
    Follows settings (session.journal earlier actions) (actions.foldl Session.perform session) := by
  induction actions generalizing session earlier with
  | nil => exact follows
  | cons action rest inductionHypothesis => exact inductionHypothesis (follows.perform action)

/-! ### What the journal tells -/

/-- What a session shows and remembers is told by its journal. -/
structure ToldBy (settings : Settings) (journal : List Step) (session : Session) : Prop where
  /-- The display shows the value. -/
  shown : session.shown = Text.result session.value
  /-- The value is the last one that a calculation, a restored calculation or an emptied display
  has set. -/
  value : session.value = (journal.findSome? fun step => step.event.value?).getD 0.0
  /-- The history consists of the last fifty calculations since it was emptied. -/
  history : session.history = (calculations journal).take 50
  /-- A calculation holds an entry that is not blank, as it was typed, and the value that the
  engine found for it in the mode of that time. -/
  calculated : ∀ step ∈ journal, ∀ calculation, step.event = .calculated calculation ↔
    step.action = .evaluate ∧ isBlankText step.found.entry = false ∧
      settings.engine.evaluate step.found.entry step.found.mode = .ok calculation.value ∧
      calculation.entry = step.found.entry ∧
      calculation.shown = Text.result calculation.value
  /-- A place in the history is brought back to the entry and the display. -/
  restores : ∀ index (inside : index < session.history.length),
    session.restore index =
      ({ session with
          entry := session.history[index].entry
          shown := session.history[index].shown
          value := session.history[index].value
          fault? := none }, true)
  /-- There is nothing to bring back at any other place. -/
  refuses : ∀ index, session.history.length ≤ index → session.restore index = (session, false)
  /-- A fault is shown as long as nothing takes it off after an attempt that failed. -/
  fault : session.faultText ≠ "" ↔
    ∃ later failed earlier, journal = later ++ failed :: earlier ∧
      failed.event.fault?.isSome ∧ ∀ step ∈ later, step.event.relieves = false

theorem Follows.toldBy {settings : Settings} {journal : List Step} {session : Session}
    (follows : Follows settings journal session) : ToldBy settings journal session where
  shown := follows.shown_eq
  value := follows.value_eq
  history := follows.history_eq
  calculated step known calculation := by
    rw [← follows.engines_eq step known]
    exact eventOf_eq_calculated_iff
  restores index inside := by
    unfold restore
    rw [List.getElem?_eq_getElem inside]
  refuses index outside := by
    unfold restore
    rw [List.getElem?_eq_none outside]
  fault := by
    rw [faultText_ne_empty_iff, follows.fault?_eq]
    exact isSome_head?_since_iff (fun _ => Event.relieves_of_fault?) journal

/-- Whatever a new session is given, its journal tells what it shows and remembers. -/
theorem after_toldBy_journal (settings : Settings) (inputs : List Input) :
    ToldBy settings ((start settings).journal [] (inputs.flatMap Input.actions))
      ((start settings).after inputs) := by
  rw [after_eq_foldl]
  exact ((follows_start settings).foldl_perform _).toldBy

/-- A product, and a quotient that has no value, each typed as a line. -/
def twoLines : List Input :=
  [.line "6*7", .line "1/0"]

/-- The fault of the second line is shown beside the value of the first one, which stays in the
history until that is emptied. -/
theorem after_toldBy_journal_twoLines :
    let told := (start {}).after twoLines
    told.shown = "42" ∧ told.history = [⟨"6*7", 42.0, "42"⟩] ∧ told.faultText ≠ "" ∧
      ((start {}).after (twoLines ++ [.act .clearHistory])).history = [] := by
  let typed : Session := (start {}).assign "6*7"
  let retyped : Session := (typed.record 42.0).assign "1/0"
  have calculated : typed.evaluate = (typed.record 42.0, .ok (some 42.0)) :=
    evaluate_of_ok (show isBlankText "6*7" = false by decide) Engine.evaluate_product
  have journal_eq : (start {}).journal [] (twoLines.flatMap Input.actions) =
      [⟨retyped, .evaluate⟩, ⟨typed.record 42.0, .assign "1/0"⟩, ⟨typed, .evaluate⟩,
       ⟨start {}, .assign "6*7"⟩] := by
    show ((typed.evaluate.1.assign "1/0").evaluate.1).journal
      [⟨typed.evaluate.1.assign "1/0", .evaluate⟩, ⟨typed.evaluate.1, .assign "1/0"⟩,
       ⟨typed, .evaluate⟩, ⟨start {}, .assign "6*7"⟩] [] = _
    rw [calculated]
    rfl
  obtain ⟨emptied, emptied_eq⟩ : ∃ found, (start {}).journal []
      ((twoLines ++ [Input.act .clearHistory]).flatMap Input.actions) =
        ⟨found, .clearHistory⟩ :: (start {}).journal [] (twoLines.flatMap Input.actions) :=
    ⟨_, rfl⟩
  have product_event : (⟨typed, .evaluate⟩ : Step).event = .calculated ⟨"6*7", 42.0, "42"⟩ :=
    eventOf_eq_calculated_iff.mpr
      ⟨rfl, by decide, Engine.evaluate_product, rfl, by decide +kernel⟩
  have quotient_event : (⟨retyped, .evaluate⟩ : Step).event = .failed (.math .divisionByZero) :=
    eventOf_of_error (by decide) Engine.evaluate_quotientByZero
  have assigned : ∀ session text, (⟨session, .assign text⟩ : Step).event = .nothing :=
    fun _ _ => rfl
  have told := after_toldBy_journal {} twoLines
  have toldLater := after_toldBy_journal {} (twoLines ++ [.act .clearHistory])
  rw [journal_eq] at told
  rw [emptied_eq] at toldLater
  refine ⟨?_, ?_, ?_, ?_⟩
  · rw [told.shown, told.value]
    simp only [List.findSome?, product_event, quotient_event, Event.value?]
    decide +kernel
  · rw [told.history]
    simp [calculations, since, product_event, quotient_event, assigned, Event.forgets,
      Event.calculation?]
  · exact told.fault.mpr ⟨[], _, _, rfl, by rw [quotient_event]; rfl, List.forall_mem_nil _⟩
  · rw [toldLater.history]
    rfl

end Session

end DeskCalculator
