/-
This file runs a session over a whole input of bytes. The input is cut into
lines, and each line is read without the blanks around it. The dialogue stops
at the first line that quits or that is no text, and what the lines before it
did and wrote stays.
-/

import DeskCalculator.Session.Command

namespace DeskCalculator

/-! ### Lines of bytes -/

namespace Dialogue

/-- The byte that ends a line. -/
def lineFeed : UInt8 := 10

/-- The byte that is dropped before the end of a line. -/
def carriageReturn : UInt8 := 13

/-- A line whose bytes were collected last first, without a carriage return before its end. -/
def endedLine : List UInt8 → List UInt8
  | byte :: earlier => if byte = carriageReturn then earlier.reverse else (byte :: earlier).reverse
  | [] => []

/-- Collects the lines of an input: `line` holds the bytes of the current line and `found` the
lines before it, the last ones first. -/
def collectLines (found : List (List UInt8)) (line : List UInt8) : List UInt8 → List (List UInt8)
  | [] => (if line.isEmpty then found else line.reverse :: found).reverse
  | byte :: rest =>
    if byte = lineFeed then collectLines (endedLine line :: found) [] rest
    else collectLines found (byte :: line) rest

/-- The lines of an input; the last one may lack its line feed. -/
def lines (input : List UInt8) : List (List UInt8) :=
  collectLines [] [] input

/-- The text that bytes encode, if they are well-formed UTF-8. -/
def decode? (bytes : List UInt8) : Option String :=
  String.fromUTF8? ⟨bytes.toArray⟩

/-! ### Running -/

/-- How a dialogue ended: the state it left, what was written, and whether a line was no text. -/
structure Ending where
  session : Session
  written : String
  unreadable : Bool

/-- What is written before the first line. -/
def banner (session : Session) : String :=
  "mode " ++ session.mode.name ++ " (:aide pour l’aide)\n"

/-- Carries out one line, if it is a text. -/
def answer? (session : Session) (line : List UInt8) : Option (Session × Reply) :=
  (decode? line).map fun text => session.readLine (trimText text)

/-- Carries out lines one after the other, after what is already written. -/
def readLines (session : Session) (written : String) : List (List UInt8) → Ending
  | [] => ⟨session, written, false⟩
  | line :: rest =>
    match answer? session line with
    | none => ⟨session, written, true⟩
    | some (next, reply) =>
      if reply.quits then ⟨next, written ++ reply.text, false⟩
      else readLines next (written ++ reply.text) rest

/-- Runs a session over an input. -/
def run (session : Session) (input : List UInt8) : Ending :=
  readLines session (banner session) (lines input)

end Dialogue

end DeskCalculator
