/-
This file answers requests to a service. A request to evaluate comes as a JSON
body, a request for the history with a JSON query; both have to be read in full
before the service is asked anything. Every answer has a status and a body.
-/

import DeskCalculator.Json.Reader
import DeskCalculator.Service

namespace DeskCalculator

/-! ### Fields -/

namespace Json

/-- The values of the members with a name. -/
def membersNamed (name : String) (members : List (String × Json)) : List Json :=
  (members.filter fun member => member.1 == name).map Prod.snd

/-- The value of the one member with a name, or null without one. A repeated name is refused. -/
def field? (name : String) (members : List (String × Json)) : Option Json :=
  match membersNamed name members with
  | [] => some .null
  | [value] => some value
  | _ => none

/-- The members of an object under their names, if every name is a text. -/
def namedMembers? (members : List (List Char × Json)) : Option (List (String × Json)) :=
  members.mapM fun (key, value) => (Json.string key).text?.map fun name => (name, value)

/-- The fields of a document under their names in this order: the members of an object, or the
items of an array, of which the last ones may be missing. Other members of an object are passed
over; a missing field is null. -/
def fields? (names : List String) : Json → Option (List Json)
  | .object members => do
    let members ← namedMembers? members
    names.mapM fun name => field? name members
  | .array items =>
    if items.length ≤ names.length then
      some (items ++ List.replicate (names.length - items.length) .null)
    else none
  | _ => none

/-- A field that may be null. -/
def optional? {Value : Type} (read? : Json → Option Value) : Json → Option (Option Value)
  | .null => some none
  | document => (read? document).map some

/-- An angle mode: its keyword, or an object of that name with the one value null. -/
def angleMode? : Json → Option AngleMode
  | .object [(key, .null)] => (Json.string key).text?.bind AngleMode.ofKeyword?
  | document => document.text?.bind AngleMode.ofKeyword?

/-- The bound of the integers of one signed 64-bit word: the least one is its negation, and the
greatest one is just below it. -/
def integerBound : Nat := 0x8000000000000000

/-- The digits of an integer literal as an integer of one signed 64-bit word. Minus zero is no
integer. -/
def integer? : Json → Option Int
  | .number ('-' :: digits) =>
    if digits.all Char.isDigit && 0 < digitsValue digits && digitsValue digits ≤ integerBound then
      some (-(digitsValue digits : Int))
    else none
  | .number digits =>
    if digits.all Char.isDigit && digitsValue digits < integerBound then
      some (digitsValue digits)
    else none
  | _ => none

end Json

/-! ### Requests -/

/-- A request to evaluate an expression. -/
structure EvaluationRequest where
  expression : String
  mode? : Option AngleMode := none
  deriving DecidableEq

/-- Reads a body as a request to evaluate. -/
def EvaluationRequest.read? (body : String) : Option EvaluationRequest := do
  let document ← Json.read? body
  match ← Json.fields? ["expression", "mode"] document with
  | [expression, mode] => return ⟨← expression.text?, ← Json.optional? Json.angleMode? mode⟩
  | _ => none

/-- How bodies are read as requests to evaluate. A reader may tell why a body is none. -/
abbrev BodyReader := String → Except (Option String) EvaluationRequest

/-- Reads bodies as JSON documents, and does not tell why one is no request. -/
def BodyReader.json : BodyReader := fun body =>
  match EvaluationRequest.read? body with
  | some request => .ok request
  | none => .error none

/-- A request for the history of a user. -/
structure HistoryQuery where
  limit? : Option Int := none
  deriving DecidableEq

/-- Reads a text as a request for the history. -/
def HistoryQuery.read? (text : String) : Option HistoryQuery := do
  let document ← Json.read? text
  match ← Json.fields? ["limit"] document with
  | [limit] => return ⟨← Json.optional? Json.integer? limit⟩
  | _ => none

/-- Reasons for which a request is refused before the service is asked. -/
inductive RequestFault where
  | malformedBody (reason? : Option String)
  | missingExpression
  | limitOutOfBounds
  deriving DecidableEq

/-- The words for a refused request. -/
def RequestFault.message : RequestFault → String
  | malformedBody none => "Invalid request body"
  | malformedBody (some reason) => "Invalid request body: " ++ reason
  | missingExpression => "Expression is required"
  | limitOutOfBounds => "limit must be between 1 and " ++ Nat.repr greatestPage

/-- The number of records that a query asks for: an explicit limit has to be a page size, and
without one it is a usual page. -/
def HistoryQuery.limit (query : HistoryQuery) : Except RequestFault Nat :=
  match query.limit? with
  | none => .ok usualPage
  | some limit =>
    if 1 ≤ limit ∧ limit ≤ greatestPage then .ok limit.toNat else .error .limitOutOfBounds

/-! ### Answers -/

/-- The body of an answer. -/
inductive AnswerBody where
  | fault (message : String)
  | evaluated (evaluation : Evaluation)
  | history (records : List Record)
  | cleared
  deriving DecidableEq

/-- An answer to a request. -/
structure Answer where
  status : Nat
  body : AnswerBody
  deriving DecidableEq

namespace Answer

/-- The answer to a request that is granted. -/
def granted (body : AnswerBody) : Answer :=
  ⟨200, body⟩

/-- The answer to a refused request. -/
def refused (fault : RequestFault) : Answer :=
  ⟨400, .fault fault.message⟩

/-- The answer when the service does not answer. -/
def failed (fault : ServiceFault) : Answer :=
  ⟨fault.status, .fault fault.message⟩

end Answer

namespace Service

variable {State : Type} [Store State]

/-- Answers a request to evaluate. -/
def answerEvaluation (service : Service State) (request : EvaluationRequest)
    (user? : Option String) : Service State × Answer :=
  if request.expression.isEmpty then (service, .refused .missingExpression)
  else
    match service.evaluate request.expression request.mode? user? with
    | (service, .ok evaluation) => (service, .granted (.evaluated evaluation))
    | (service, .error fault) => (service, .failed fault)

/-- Answers a body with a request to evaluate. -/
def answerBody (service : Service State) (body : String) (user? : Option String)
    (reader : BodyReader := .json) : Service State × Answer :=
  match reader body with
  | .error reason? => (service, .refused (.malformedBody reason?))
  | .ok request => service.answerEvaluation request user?

/-- Answers a request for the history of a user. -/
def answerQuery (service : Service State) (user : String) (query : HistoryQuery) :
    Service State × Answer :=
  match query.limit with
  | .error fault => (service, .refused fault)
  | .ok limit =>
    match service.readHistory user (some limit) with
    | (service, .ok records) => (service, .granted (.history records))
    | (service, .error fault) => (service, .failed fault)

/-- What a request for the history of a user is answered with. -/
def answerHistory (service : Service State) (user : String) (query : HistoryQuery) : Answer :=
  (service.answerQuery user query).2

/-- Answers a request to remove the history of a user. -/
def answerClear (service : Service State) (user : String) : Service State × Answer :=
  match service.clearHistory user with
  | (service, .ok _) => (service, .granted .cleared)
  | (service, .error fault) => (service, .failed fault)

end Service

/-! ### Requests and answers as documents -/

/-- The members of an object, with names that need no escapes. -/
def Json.ofMembers (members : List (String × Json)) : Json :=
  .object (members.map fun (name, value) => (name.toList, value))

/-- A request to evaluate as a document. -/
def EvaluationRequest.document (request : EvaluationRequest) : Json :=
  .ofMembers
    [("expression", .ofText request.expression),
     ("mode", (request.mode?.map fun mode => Json.ofText mode.name).getD .null)]

/-- A record as a document. -/
def Record.document (record : Record) : Json :=
  .ofMembers
    [("expression", .ofText record.expression), ("id", .ofNat record.number),
     ("mode", .ofText record.mode.name), ("result", .ofText record.result),
     ("userId", .ofText record.user)]

/-- The body of an answer as a document; members stand in the order of their names. -/
def AnswerBody.document : AnswerBody → Json
  | fault message => .ofMembers [("error", .ofText message)]
  | evaluated evaluation =>
    .ofMembers
      [("expression", .ofText evaluation.expression), ("mode", .ofText evaluation.mode.name),
       ("result", .ofFloat evaluation.value)]
  | history records => .ofMembers [("history", .array (records.map Record.document))]
  | cleared => .ofMembers [("success", .boolean true)]

/-- An answer as a document. -/
def Answer.document (answer : Answer) : Json :=
  .ofMembers [("status", .ofNat answer.status), ("body", answer.body.document)]

end DeskCalculator
