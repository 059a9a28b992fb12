/-
This file compares the two ways of asking for the history without saying how
much of it. A direct call lists a page of the settings; a request lists the usual
page, whatever the settings say. Both lists are the newest records of the user,
so they are the same exactly if the two pages are equally long or the user has
too few records to fill the shorter one.
-/

import DeskCalculator.Proofs.Composition
import DeskCalculator.Proofs.Persistence

namespace DeskCalculator

/-- A text that is read as a number is evaluated to it. -/
theorem Engine.evaluate_of_number {engine : Engine} {text : String} {value : Float}
    (read : engine.read text = .ok (.number value)) (mode : AngleMode) :
    engine.evaluate text mode = .ok value := by
  rw [evaluate_of_read read, Engine.value, Expr.evaluate_number]
  rfl

namespace Service

/-! ### The two pages -/

/-- A direct call without a limit lists a page of the settings. -/
theorem history_none (service : Service MemoryStore) (user : String) :
    service.history user none =
      .ok ((service.store.recordsOf user).take service.settings.page) := by
  have inside : Settings.clampPage service.settings.page = service.settings.page := by
    have bounds := service.settings.page_bounds
    unfold Settings.clampPage
    omega
  show Except.ok ((service.store.recordsOf user).take
    (Settings.clampPage service.settings.page)) = _
  rw [inside]

/-- A request without a limit is answered with what a direct call for the usual page lists. -/
theorem answerHistory_none (service : Service MemoryStore) (user : String) :
    service.history user (some usualPage) =
        .ok ((service.store.recordsOf user).take usualPage) ∧
      service.answerHistory user {} =
        ⟨200, .history ((service.store.recordsOf user).take usualPage)⟩ :=
  ⟨rfl, rfl⟩

/-- A request without a limit lists the usual page of the user's history, the newest records first,
whatever the settings are, however bodies are read and whatever calls came before. So it lists what a direct call without a
limit lists exactly if the page of the settings is the usual one or the user has no more records
than fit the shorter of both pages. -/
theorem answerHistory_usualPage (reader : BodyReader) (settings : Settings) (calls : List Call)
    (user : String) :
    let service := (start settings).after reader calls
    ∃ usual page total, service.answerHistory user {} = ⟨200, .history usual⟩ ∧
      service.history user (some 50) = .ok usual ∧ service.history user none = .ok page ∧
      (service.clearHistory user).2 = .ok total ∧
      (usual = page ↔ settings.page = 50 ∨ total ≤ min 50 settings.page) := by
  intro service
  have settings_eq : service.settings = settings :=
    ((keeps_start reader settings).after calls).settings_eq
  obtain ⟨listed, answered⟩ := service.answerHistory_none user
  refine ⟨_, _, (service.store.recordsOf user).length, answered, listed,
    service.history_none user, rfl, ?_⟩
  rw [List.take_eq_take_iff, settings_eq, usualPage]
  omega

/-- A calculation that has a value is one more entry of its user. -/
theorem carryOut_evaluate_of_ok {reader : BodyReader} {service : Service MemoryStore}
    {expression : String} {value : Float}
    (evaluated : service.settings.engine.evaluate expression service.settings.mode = .ok value)
    (user : String) :
    (service.carryOut reader (.evaluate expression none (some user))).1 =
      service.withEntry ⟨expression, service.settings.mode, value⟩ (some user) := by
  show (service.evaluate expression none (some user)).1 = _
  simp only [evaluate, Option.getD_none, evaluated, keep_eq]

/-- Two calculations of one user. -/
def twoCalculations : List Call :=
  [.evaluate "1" none (some "ada"), .evaluate "2" none (some "ada")]

/-- With pages of one record, the user of two calculations is shown both of them on request, and
the last one on a direct call. -/
theorem answerHistory_beyond_page :
    let service := (start (({} : Settings).withPage 1)).after .json twoCalculations
    ∃ first last : Record, first ≠ last ∧
      service.answerHistory "ada" {} = ⟨200, .history [last, first]⟩ ∧
      service.history "ada" none = .ok [last] ∧
      ¬∃ records, service.answerHistory "ada" {} = ⟨200, .history records⟩ ∧
        service.history "ada" none = .ok records := by
  have one : Engine.read {} "1" = .ok (.number 1.0) := rfl
  have two : Engine.read {} "2" = .ok (.number 2.0) := rfl
  have run : (start (({} : Settings).withPage 1)).after .json twoCalculations =
      ((start (({} : Settings).withPage 1)).withEntry ⟨"1", .degrees, 1.0⟩ (some "ada")).withEntry
        ⟨"2", .degrees, 2.0⟩ (some "ada") := by
    have first : ((start (({} : Settings).withPage 1)).carryOut .json
        (.evaluate "1" none (some "ada"))).1 = _ :=
      carryOut_evaluate_of_ok (Engine.evaluate_of_number one .degrees) "ada"
    unfold after twoCalculations
    rw [List.foldl_cons, List.foldl_cons, List.foldl_nil, first]
    exact carryOut_evaluate_of_ok (Engine.evaluate_of_number two .degrees) "ada"
  intro service
  have answered : service.answerHistory "ada" {} = ⟨200, .history
      [⟨entryOf ⟨"2", .degrees, 2.0⟩ "ada", 2⟩, ⟨entryOf ⟨"1", .degrees, 1.0⟩ "ada", 1⟩]⟩ := by
    rw [show service = _ from run]
    rfl
  have listed : service.history "ada" none =
      .ok [⟨entryOf ⟨"2", .degrees, 2.0⟩ "ada", 2⟩] := by
    rw [show service = _ from run]
    rfl
  refine ⟨_, _, ?_, answered, listed, ?_⟩
  · intro same
    cases congrArg Record.number same
  · rintro ⟨records, shown, found⟩
    rw [answered] at shown
    rw [listed] at found
    cases shown
    cases found

end Service

end DeskCalculator
