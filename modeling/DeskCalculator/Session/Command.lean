/-
This file says what a typed line does to a session and what is written for it.
A line is an expression to evaluate, or a command after a colon.
-/

import DeskCalculator.Session.Basic
import DeskCalculator.Text.Count

namespace DeskCalculator

/-! ### Commands -/

/-- The commands of a session. A place in the history that cannot be read is no place. -/
inductive Command where
  | quit
  | setMode (mode : AngleMode)
  | showHistory
  | restore (index? : Option Nat)
  | clear
  | clearHistory
  | memoryClear
  | memoryRecall
  | memoryAdd
  | memorySubtract
  | memoryStore
  | help
  | unknown (name : String)
  deriving DecidableEq

namespace Command

/-- Splits a text at its first space; the space belongs to neither part. -/
def splitAtSpace (text : String) : String × String :=
  let chars := text.toList
  let word := chars.takeWhile (· != ' ')
  (String.ofList word, String.ofList (chars.drop (word.length + 1)))

/-- Reads a command: its name, and after a space the place of a calculation. -/
def read (text : String) : Command :=
  let (name, argument) := splitAtSpace text
  match name with
  | "q" | "quit" => quit
  | "deg" => setMode .degrees
  | "rad" => setMode .radians
  | "hist" => showHistory
  | "rappel" => restore (readCount? (trimText argument))
  | "clear" => clear
  | "effacer" => clearHistory
  | "mc" => memoryClear
  | "mr" => memoryRecall
  | "m+" => memoryAdd
  | "m-" => memorySubtract
  | "ms" => memoryStore
  | "aide" | "help" => help
  | _ => unknown name

end Command

/-! ### Replies -/

/-- What is written for a line, and whether the line ends the session. -/
structure Reply where
  text : String := ""
  quits : Bool := false
  deriving DecidableEq

namespace Reply

/-- A reply of one line. -/
def line (text : String) : Reply :=
  { text := text ++ "\n" }

/-- The help text. -/
def help : String :=
  "expressions : 2 + 3 * 4, sin(30), fact(5), PI / 2 ...\n" ++
    "commandes   : :deg :rad :hist :rappel N :clear :effacer :mc :mr :m+ :m- :ms :aide :q"

/-- A text and the value shown for it. -/
def equation (entry shown : String) : String :=
  entry ++ " = " ++ shown

/-- A place in the history, at least three characters wide. -/
def place (index : Nat) : String :=
  let digits := Nat.toDigits 10 index
  String.ofList (List.replicate (3 - digits.length) ' ' ++ digits)

/-- One line for every calculation, numbered from the newest one. -/
def history (calculations : List Calculation) : String :=
  String.join <| (calculations.zipIdx).map fun (calculation, index) =>
    place index ++ "  " ++ equation calculation.entry calculation.shown ++ "\n"

end Reply

/-! ### Lines -/

namespace Session

/-- Carries out a command. -/
def execute (session : Session) : Command → Session × Reply
  | .quit => (session, { quits := true })
  | .setMode mode => (session.setMode mode, .line ("mode " ++ mode.name))
  | .showHistory =>
    (session,
      if session.history.isEmpty then .line "(historique vide)"
      else { text := Reply.history session.history })
  | .restore index? =>
    match index?.map session.restore with
    | some (recalled, true) => (recalled, .line (Reply.equation recalled.entry recalled.shown))
    | _ => (session, .line "rappel : index invalide")
  | .clear => (session.clear, .line "effacé")
  | .clearHistory => (session.clearHistory, .line "historique effacé")
  | .memoryClear => (session.memoryClear, {})
  | .memoryRecall =>
    let recalled := (session.assign "").memoryRecall
    (recalled, .line (Reply.equation "M" recalled.entry))
  | .memoryAdd => (session.memoryAdd, {})
  | .memorySubtract => (session.memorySubtract, {})
  | .memoryStore => (session.memoryStore, {})
  | .help => (session, .line Reply.help)
  | .unknown name => (session, .line ("commande inconnue : :" ++ name))

/-- Takes a line as the entry and evaluates it. -/
def evaluateLine (session : Session) (line : String) : Session × Reply :=
  match (session.assign line).evaluate with
  | (evaluated, .ok _) => (evaluated, .line ("= " ++ evaluated.shown))
  | (evaluated, .error fault) => (evaluated, .line ("erreur : " ++ fault.message))

/-- Carries out a line: nothing, a command after a colon, or an expression. -/
def readLine (session : Session) (line : String) : Session × Reply :=
  match line.toList with
  | [] => (session, {})
  | ':' :: command => session.execute (Command.read (trimText (String.ofList command)))
  | _ => session.evaluateLine line

end Session

end DeskCalculator
