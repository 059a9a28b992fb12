/-
This file is the program: it passes arguments, environment and input on and
writes what comes back. A dialogue is carried out line by line, so that every
line is answered before the next one is read.
-/

import DeskCalculator.CommandLine.Run

namespace DeskCalculator.CommandLine

/-- Reads the bytes of one line, with its line feed if it has one. -/
partial def readLineBytes (input : IO.FS.Stream) (bytes : List UInt8) : IO (List UInt8) := do
  match (← input.read 1).toList with
  | [] => return bytes.reverse
  | byte :: _ =>
    if byte = Dialogue.lineFeed then return (byte :: bytes).reverse
    else readLineBytes input (byte :: bytes)

/-- Answers lines until one of them ends the dialogue or the input ends. -/
partial def converse (input output : IO.FS.Stream) (session : Session) : IO Report := do
  match Dialogue.lines (← readLineBytes input []) with
  | [] => return ofEnding ⟨session, "", false⟩
  | line :: _ =>
    match Dialogue.answer? session line with
    | none => return ofEnding ⟨session, "", true⟩
    | some (next, reply) =>
      output.putStr reply.text
      output.flush
      if reply.quits then return ofEnding ⟨next, "", false⟩ else converse input output next

/-- The variables of the environment that set options. -/
def environment : IO Options.Environment := do
  return ⟨← IO.getEnv "CALC_MODE", ← IO.getEnv "CALC_MAX_DEPTH", ← IO.getEnv "CALC_LOG"⟩

/-- Writes a report and returns its exit code. -/
def deliver (report : Report) : IO UInt32 := do
  (← IO.getStdout).putStr report.output
  (← IO.getStderr).putStr report.errors
  return UInt32.ofNat report.code

end DeskCalculator.CommandLine

open DeskCalculator in
/-- Runs the program. -/
def main (arguments : List String) : IO UInt32 := do
  match CommandLine.plan arguments (← CommandLine.environment) with
  | .report report => CommandLine.deliver report
  | .dialogue session => do
    let output ← IO.getStdout
    output.putStr (Dialogue.banner session)
    output.flush
    CommandLine.deliver (← CommandLine.converse (← IO.getStdin) output session)
