/-
This file proves that a dialogue is its lines, carried out one after the other.
It stops at the first line that quits or is no text: the session it leaves and
what it writes come from the lines before, and no line after it has any effect.
So an input whose lines all go on can be cut off in front, and the rest is a
dialogue with the session that it left. A line that is an expression writes the
value of this expression or its fault, and no earlier value.
-/

import DeskCalculator.Proofs.InputLines

namespace DeskCalculator

namespace Session

/-! ### Lines one after the other -/

/-- Carries out one more line after what is already written. -/
def readNext (reached : Session × String) (text : String) : Session × String :=
  ((reached.1.readLine text).1, reached.2 ++ (reached.1.readLine text).2.text)

/-- Carries out texts as lines, one after the other: the session that they leave, and what is
written for them. -/
def readAll (session : Session) (texts : List String) : Session × String :=
  texts.foldl readNext (session, "")

theorem foldl_readNext (session : Session) (written : String) (texts : List String) :
    texts.foldl readNext (session, written) =
      ((session.readAll texts).1, written ++ (session.readAll texts).2) := by
  unfold readAll
  induction texts generalizing session written with
  | nil => simp
  | cons text rest inductionHypothesis =>
    rw [List.foldl_cons, List.foldl_cons, readNext, readNext, inductionHypothesis,
      inductionHypothesis (session.readLine text).1 ("" ++ (session.readLine text).2.text)]
    simp [String.append_assoc]

theorem readAll_append (session : Session) (front back : List String) :
    session.readAll (front ++ back) =
      (((session.readAll front).1.readAll back).1,
        (session.readAll front).2 ++ ((session.readAll front).1.readAll back).2) := by
  rw [readAll, List.foldl_append, ← foldl_readNext]
  rfl

/-! ### Lines that quit -/

/-- The words that end a dialogue. -/
def quitWords : List String := ["q", "quit"]

/-- Whether a line is a colon and a command that ends the dialogue: the blanks around the command
and what follows its first space do not matter. -/
def isQuit (text : String) : Bool :=
  match text.toList with
  | ':' :: command => quitWords.contains (String.ofList ((trimBlanks command).takeWhile (· != ' ')))
  | _ => false

theorem read_eq_quit_iff (text : String) :
    Command.read text = .quit ↔
      quitWords.contains (String.ofList (text.toList.takeWhile (· != ' '))) = true := by
  unfold Command.read Command.splitAtSpace
  dsimp only
  generalize String.ofList (text.toList.takeWhile (· != ' ')) = name
  split <;> simp_all [quitWords]

theorem isQuit_iff (text : String) :
    isQuit text = true ↔ ∃ command, text.toList = ':' :: command ∧
      Command.read (trimText (String.ofList command)) = .quit := by
  simp only [read_eq_quit_iff, trimText, String.toList_ofList]
  unfold isQuit
  split
  · rename_i command chars_eq
    constructor
    · exact fun quits => ⟨command, chars_eq, quits⟩
    · rintro ⟨other, same, quits⟩
      obtain rfl : command = other := (List.cons.inj (chars_eq.symm.trans same)).2
      exact quits
  · rename_i noCommand
    refine ⟨fun quits => (Bool.false_ne_true quits).elim, ?_⟩
    rintro ⟨command, same, _⟩
    exact (noCommand command same).elim

theorem quits_execute_iff (session : Session) (command : Command) :
    (session.execute command).2.quits = true ↔ command = .quit := by
  cases command with
  | showHistory =>
    simp only [execute]
    split <;> simp [Reply.line]
  | restore index? =>
    simp only [execute]
    split <;> simp [Reply.line]
  | _ => simp [execute, Reply.line]

theorem quits_evaluateLine (session : Session) (text : String) :
    (session.evaluateLine text).2.quits = false := by
  unfold evaluateLine
  split <;> rfl

theorem readLine_of_command (session : Session) {text : String} {command : List Char}
    (colon : text.toList = ':' :: command) :
    session.readLine text = session.execute (Command.read (trimText (String.ofList command))) := by
  unfold readLine
  rw [colon]
  rfl

/-- A text that is no command is an expression. -/
theorem readLine_of_expression (session : Session) {text : String} (nonempty : text ≠ "")
    (noCommand : ':' ∉ text.toList.head?) : session.readLine text = session.evaluateLine text := by
  unfold readLine
  split
  · rename_i empty
    exact absurd (by simpa using empty) nonempty
  · rename_i command colon
    exact absurd (by rw [colon]; rfl) noCommand
  · rfl

/-- Which lines quit does not depend on the session. -/
theorem quits_readLine (session : Session) (text : String) :
    (session.readLine text).2.quits = isQuit text := by
  rw [Bool.eq_iff_iff, isQuit_iff]
  cases chars_eq : text.toList with
  | nil =>
    obtain rfl : text = "" := by simpa using chars_eq
    simp [readLine]
  | cons first rest =>
    by_cases colon : first = ':'
    · subst colon
      rw [session.readLine_of_command chars_eq, quits_execute_iff]
      simp
    · have nonempty : text ≠ "" := by
        rintro rfl
        cases chars_eq
      rw [session.readLine_of_expression nonempty (by simpa [chars_eq] using colon),
        quits_evaluateLine]
      simp [colon]

/-- A line that quits changes nothing and writes nothing. -/
theorem readLine_of_isQuit (session : Session) {text : String} (quits : isQuit text = true) :
    session.readLine text = (session, { quits := true }) := by
  obtain ⟨command, colon, read⟩ := (isQuit_iff text).mp quits
  rw [session.readLine_of_command colon, read]
  rfl

/-! ### Lines that are expressions -/

/-- A line that is an expression writes one message: the value that the expression has now, or its
fault. -/
theorem evaluateLine_snd (session : Session) {text : String} (visible : isBlankText text = false) :
    (session.evaluateLine text).2 = .line (match session.engine.evaluate text session.mode with
      | .ok value => "= " ++ Text.result value
      | .error fault => "erreur : " ++ fault.message) := by
  unfold evaluateLine evaluate assign
  dsimp only
  rw [visible, if_neg Bool.false_ne_true]
  cases session.engine.evaluate text session.mode <;> rfl

end Session

namespace Dialogue

/-! ### Where a dialogue stops -/

/-- Whether a dialogue stops at a line: it is no text, or it quits. -/
def stops (line : List UInt8) : Bool :=
  match decode? line with
  | none => true
  | some text => Session.isQuit (trimText text)

/-- The texts that a dialogue carries out: the trimmed lines before the first one that stops it,
each of which is a text. -/
def textsBeforeStop (lines : List (List UInt8)) : List String :=
  ((lines.takeWhile fun line => !stops line).filterMap decode?).map trimText

/-- Whether a dialogue stops because of a line that is no text. -/
def stopsUnreadable (lines : List (List UInt8)) : Bool :=
  (lines.find? stops).any fun line => (decode? line).isNone

/-- The lines that are carried out tell everything about a dialogue. -/
theorem readLines_eq (session : Session) (written : String) (lines : List (List UInt8)) :
    readLines session written lines =
      ⟨(session.readAll (textsBeforeStop lines)).1,
        written ++ (session.readAll (textsBeforeStop lines)).2, stopsUnreadable lines⟩ := by
  induction lines generalizing session written with
  | nil => simp [readLines, textsBeforeStop, stopsUnreadable, Session.readAll]
  | cons line rest inductionHypothesis =>
    unfold readLines answer?
    cases decoded : decode? line with
    | none =>
      have stopped : stops line = true := by simp [stops, decoded]
      simp [textsBeforeStop, stopsUnreadable, stopped, decoded, Session.readAll]
    | some text =>
      have stops_eq : stops line = Session.isQuit (trimText text) := by simp [stops, decoded]
      simp only [Option.map_some, Session.quits_readLine]
      cases quits : Session.isQuit (trimText text) with
      | true =>
        rw [quits] at stops_eq
        simp [session.readLine_of_isQuit quits, textsBeforeStop, stopsUnreadable, stops_eq,
          decoded, Session.readAll]
      | false =>
        rw [quits] at stops_eq
        have texts_eq :
            textsBeforeStop (line :: rest) = [trimText text] ++ textsBeforeStop rest := by
          simp [textsBeforeStop, stops_eq, decoded]
        have unreadable_eq : stopsUnreadable (line :: rest) = stopsUnreadable rest := by
          simp [stopsUnreadable, stops_eq]
        rw [if_neg Bool.false_ne_true, inductionHypothesis, texts_eq, unreadable_eq,
          Session.readAll_append]
        simp [Session.readAll, Session.readNext, String.append_assoc]

theorem run_eq (session : Session) (input : List UInt8) :
    run session input =
      ⟨(session.readAll (textsBeforeStop (lines input))).1,
        banner session ++ (session.readAll (textsBeforeStop (lines input))).2,
        stopsUnreadable (lines input)⟩ :=
  readLines_eq session (banner session) (lines input)

/-! ### Inputs after one another -/

/-- The bytes are complete lines: they end in a line feed, if there are any. -/
def EndsLine (bytes : List UInt8) : Prop :=
  ∀ last ∈ bytes.getLast?, last = lineFeed

theorem lines_append {front : List UInt8} (ends : EndsLine front) (back : List UInt8) :
    lines (front ++ back) = lines front ++ lines back := by
  have cut := isCut_lines front
  generalize lines front = pieces at cut
  induction cut with
  | nothing => rfl
  | @unended line nonempty unbroken =>
    have last := List.getLast?_eq_some_getLast nonempty
    have broken := List.mem_of_getLast? last
    rw [ends _ last] at broken
    exact absurd broken unbroken
  | @ended line input rest unbroken _ inductionHypothesis =>
    have inputEnds : EndsLine input := by
      intro last isLast
      refine ends last ?_
      rw [List.getLast?_append, List.getLast?_cons]
      simp [Option.mem_def.mp isLast]
    rw [List.append_assoc, List.cons_append, lines_ended unbroken, inductionHypothesis inputEnds]
    rfl

theorem textsBeforeStop_append {front : List (List UInt8)}
    (goOn : ∀ line ∈ front, stops line = false) (back : List (List UInt8)) :
    textsBeforeStop (front ++ back) = textsBeforeStop front ++ textsBeforeStop back := by
  have kept : ∀ line ∈ front, (!stops line) = true := fun line member => by
    rw [goOn line member]
    rfl
  have all : front.takeWhile (fun line => !stops line) = front :=
    List.takeWhile_eq_self_iff.mpr kept
  rw [textsBeforeStop, List.takeWhile_append_of_pos kept, List.filterMap_append, List.map_append,
    textsBeforeStop, all]
  rfl

theorem stopsUnreadable_append {front : List (List UInt8)}
    (goOn : ∀ line ∈ front, stops line = false) (back : List (List UInt8)) :
    stopsUnreadable (front ++ back) = stopsUnreadable back := by
  rw [stopsUnreadable, List.find?_append, List.find?_eq_none.mpr (by simpa using goOn)]
  rfl

/-- While no line stops the dialogue, what follows the lines is a dialogue with the session that
they leave. -/
theorem run_append {front : List UInt8} (ends : EndsLine front)
    (goOn : ∀ line ∈ lines front, stops line = false) (session : Session) (back : List UInt8) :
    ∃ written, (run (run session front).session back).written =
        banner (run session front).session ++ written ∧
      run session (front ++ back) =
        ⟨(run (run session front).session back).session, (run session front).written ++ written,
          (run (run session front).session back).unreadable⟩ := by
  refine ⟨((run session front).session.readAll (textsBeforeStop (lines back))).2, ?_, ?_⟩
  · rw [run_eq (run session front).session back]
  · rw [run_eq (run session front).session back, run_eq session (front ++ back),
      run_eq session front, lines_append ends, textsBeforeStop_append goOn,
      stopsUnreadable_append goOn, Session.readAll_append, String.append_assoc]

/-- A dialogue writes its banner, carries out its trimmed lines up to the first one that stops it,
and ends with an error exactly when this one is no text. An input whose complete lines all go on
can be cut off: what comes after it is a dialogue of its own, but for the banner. A line that is an
expression writes one message, with the value that it has in the session or with its fault. -/
theorem run_reads_lines (session : Session) (input : List UInt8) :
    (∀ pieces, IsCut input pieces ↔ lines input = pieces) ∧
    run session input =
      ⟨(session.readAll (textsBeforeStop (lines input))).1,
        banner session ++ (session.readAll (textsBeforeStop (lines input))).2,
        stopsUnreadable (lines input)⟩ ∧
    (EndsLine input → (∀ line ∈ lines input, stops line = false) → ∀ rest,
      ∃ written, (run (run session input).session rest).written =
          banner (run session input).session ++ written ∧
        run session (input ++ rest) =
          ⟨(run (run session input).session rest).session,
            (run session input).written ++ written,
            (run (run session input).session rest).unreadable⟩) ∧
    ∀ text, trimText text ≠ "" → ':' ∉ (trimText text).toList.head? →
      (session.readLine (trimText text)).2 =
        .line (match session.engine.evaluate (trimText text) session.mode with
          | .ok value => "= " ++ Text.result value
          | .error fault => "erreur : " ++ fault.message) := by
  refine ⟨fun pieces => isCut_iff, run_eq session input, ?_, ?_⟩
  · intro ends goOn rest
    exact run_append ends goOn session rest
  · intro text nonempty noCommand
    rw [session.readLine_of_expression nonempty noCommand]
    exact session.evaluateLine_snd (isBlankText_trimText nonempty)

/-- The lines `:rad` and `:ms`. -/
def twoCommands : List UInt8 :=
  [0x3A, 0x72, 0x61, 0x64, 0x0A, 0x3A, 0x6D, 0x73, 0x0D, 0x0A]

/-- The line `:q` and a byte that is no text. -/
def quitting : List UInt8 :=
  [0x3A, 0x71, 0x0A, 0xFF]

/-- The two commands do not stop a dialogue. It goes on in radians, and what follows them quits it
before the byte that is no text. -/
theorem run_reads_lines_quitting :
    EndsLine twoCommands ∧ (∀ line ∈ lines twoCommands, stops line = false) ∧
      (run (Session.start {}) twoCommands).session.mode = .radians ∧
      ∃ written, (run (run (Session.start {}) twoCommands).session quitting).written =
          "mode RAD (:aide pour l’aide)\n" ++ written ∧
        (run (Session.start {}) (twoCommands ++ quitting)).written =
          "mode DEG (:aide pour l’aide)\nmode RAD\n" ++ written ∧
        (run (Session.start {}) (twoCommands ++ quitting)).unreadable = false := by
  have ends : EndsLine twoCommands := by
    intro last isLast
    cases isLast
    rfl
  have goOn : ∀ line ∈ lines twoCommands, stops line = false := by decide
  have inRadians : (run (Session.start {}) twoCommands).session.mode = .radians := by decide
  obtain ⟨written, rest_eq, whole_eq⟩ :=
    (run_reads_lines (Session.start {}) twoCommands).2.2.1 ends goOn quitting
  refine ⟨ends, goOn, inRadians, written, ?_, ?_, ?_⟩
  · rw [rest_eq, banner, inRadians]
    rfl
  · rw [whole_eq]
    have front_eq : (run (Session.start {}) twoCommands).written =
        "mode DEG (:aide pour l’aide)\nmode RAD\n" := by decide
    rw [front_eq]
  · decide

end Dialogue

end DeskCalculator
