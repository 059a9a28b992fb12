/-
This file says what the program does for its arguments. With an expression it
makes one calculation, shows the tokens and the tree if asked to, and reports
the result as text or as a JSON document; without one it opens a dialogue on
its input. The exit code is zero exactly when the calculation has a value.
-/

import DeskCalculator.CommandLine.Options
import DeskCalculator.Json.Writer
import DeskCalculator.Request
import DeskCalculator.Session.Dialogue

namespace DeskCalculator.CommandLine

/-! ### Reports -/

/-- What the program leaves behind: its exit code and what it wrote to its two outputs. -/
structure Report where
  code : Nat
  output : String := ""
  errors : String := ""
  deriving DecidableEq

/-- Puts a text in front of the output. -/
def Report.after (report : Report) (output : String) : Report :=
  { report with output := output ++ report.output }

/-- What `--version` writes. -/
def versionText : String := "calculatrice 0.1.0\n"

/-- What `--help` tells of the program. The list of the arguments, which stands between its two
parts, is laid out by their reader and left out here. -/
def helpText : String :=
  "Calculatrice scientifique (f64, DEG/RAD)\n" ++
  "\n" ++
  "Variables d’environnement :\n" ++
  "  CALC_MODE=DEG|RAD      Mode d’angle par défaut\n" ++
  "  CALC_MAX_DEPTH=256     Profondeur d’imbrication maximale\n" ++
  "  CALC_LOG=debug         Niveau de journalisation\n" ++
  "\n" ++
  "Exemples :\n" ++
  "  calculatrice \"2 + 3 * 4\"\n" ++
  "  calculatrice --mode rad \"asin(1)\"\n" ++
  "  calculatrice --json \"sqrt(-1)\"\n" ++
  "  calculatrice                       # REPL\n"

/-- The report for arguments that ask for no work. What is wrong with refused ones is for their
reader to say. -/
def diverted : Diversion → Report
  | .refused => { code := 2 }
  | .help => { code := 0, output := helpText }
  | .version => { code := 0, output := versionText }

/-- The report of a fault: as text, or as a document whose members stand in the order of their
names. -/
def failure (json : Bool) (message : String) : Report :=
  if json then
    let document := Json.ofMembers
      [("body", .ofMembers [("error", .ofText message)]), ("status", .ofNat 400)]
    { code := 1, output := document.pretty ++ "\n" }
  else { code := 1, errors := "erreur : " ++ message ++ "\n" }

/-! ### One calculation -/

/-- The settings that the options ask for. -/
def settingsOf (options : Options) : Settings :=
  let settings : Settings := {}
  let settings := match options.mode? with
    | some mode => settings.withMode mode
    | none => settings
  match options.limit? with
  | some limit => settings.withLimit limit
  | none => settings

/-- The line that shows the tokens. -/
def tokensLine (tokens : List Token) : String :=
  "jetons : " ++ Token.listing tokens ++ "\n"

/-- The line that shows the tree. -/
def treeLine (expr : Expr) : String :=
  "arbre  : " ++ expr.text ++ "  (profondeur " ++ Nat.repr expr.height ++ ")\n"

/-- Shows the tokens and the tree as far as they are asked for and exist. -/
def showStages (options : Options) (engine : Engine) (expression : String) :
    String × Option Fault :=
  match engine.tokens expression with
  | .error fault => ("", some fault)
  | .ok tokens =>
    let shown := if options.tokens then tokensLine tokens else ""
    if options.tree then
      match engine.tree tokens with
      | .error fault => (shown, some fault)
      | .ok expr => (shown ++ treeLine expr, none)
    else (shown, none)

/-- Evaluates an expression and reports its value or its fault. For a document the expression is
sent to the service as the body of a request. -/
def calculate (reader : BodyReader) (options : Options) (settings : Settings)
    (expression : String) : Report :=
  let service : Service MemoryStore := ⟨settings, {}⟩
  if options.json then
    let request : EvaluationRequest := ⟨expression, some settings.mode⟩
    let answer := (service.answerBody request.document.compact options.user? reader).2
    { code := if answer.status = 200 then 0 else 1, output := answer.document.pretty ++ "\n" }
  else
    match (service.evaluate expression none options.user?).2 with
    | .ok evaluation => { code := 0, output := Text.result evaluation.value ++ "\n" }
    | .error fault => failure false fault.message

/-- Shows the stages of a calculation if asked to, and then makes it. -/
def runExpression (reader : BodyReader) (options : Options) (settings : Settings)
    (expression : String) : Report :=
  if options.tokens || options.tree then
    match showStages options settings.engine expression with
    | (shown, some fault) => (failure options.json fault.message).after shown
    | (shown, none) => (calculate reader options settings expression).after shown
  else calculate reader options settings expression

/-! ### The program -/

/-- How the program reads its arguments with the environment, and the bodies that it sends to its
service. -/
structure Readers where
  arguments : List String → Options.Environment → Except Diversion Options := Options.read
  body : BodyReader := .json

/-- What the arguments lead to: a report at once, or a dialogue on the input. -/
inductive Plan where
  | report (report : Report)
  | dialogue (session : Session)

/-- The plan for arguments and environment. -/
def plan (arguments : List String) (environment : Options.Environment)
    (readers : Readers := {}) : Plan :=
  match readers.arguments arguments environment with
  | .error diversion => .report (diverted diversion)
  | .ok options =>
    match options.expression? with
    | some expression =>
      .report (runExpression readers.body options (settingsOf options) expression)
    | none => .dialogue (Session.start (settingsOf options))

/-- What is written when a line of the input is no text. -/
def interruptedText : String :=
  "Error: REPL interrompu\n\nCaused by:\n    stream did not contain valid UTF-8\n"

/-- The report of a dialogue that has ended. -/
def ofEnding (ending : Dialogue.Ending) : Report :=
  if ending.unreadable then { code := 1, output := ending.written, errors := interruptedText }
  else { code := 0, output := ending.written }

/-- Runs the program on its arguments, its environment and its whole input. -/
def run (arguments : List String) (environment : Options.Environment) (input : List UInt8)
    (readers : Readers := {}) : Report :=
  match plan arguments environment readers with
  | .report report => report
  | .dialogue session => ofEnding (Dialogue.run session input)

end DeskCalculator.CommandLine
