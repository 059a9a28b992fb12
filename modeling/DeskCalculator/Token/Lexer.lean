/-
This file splits a text into tokens. At each place the lexer takes the longest
lexeme that starts there: a run of digits and points after a digit, a run of
capitals, a run of small letters, or one other character. Blanks separate
lexemes and are dropped. The first lexeme outside the vocabulary is a fault of
the whole text.
-/

import DeskCalculator.Fault
import DeskCalculator.Text.Blank
import DeskCalculator.Token.Basic

namespace DeskCalculator

/-! ### Lexemes -/

/-- What the characters at one place of a text are. -/
inductive Lexeme where
  | blank
  | word (kind : TokenKind) (text : List Char)
  | unknown (text : List Char)

namespace Lexeme

/-- The characters that go on with a numeral after its first digit. -/
def isNumeralChar (char : Char) : Bool :=
  char.isDigit || char == '.'

/-- A run of letters as a word of the vocabulary, or as an unknown one. -/
def ofLetters (kind? : String → Option TokenKind) (letters : List Char) : Lexeme :=
  match kind? (String.ofList letters) with
  | some kind => .word kind letters
  | none => .unknown letters

/-- A single character as an operator or a parenthesis. -/
def ofSign (char : Char) : Lexeme :=
  match char with
  | '(' => .word .opening ['(']
  | ')' => .word .closing [')']
  | _ =>
    match Operator.ofSymbol? char with
    | some operator => .word (.operator operator) [char]
    | none => .unknown [char]

/-- The lexeme that starts with a character before the rest of the text. -/
def read (char : Char) (rest : List Char) : Lexeme :=
  if isBlank char then .blank
  else if char.isDigit then .word .number (char :: rest.takeWhile isNumeralChar)
  else if char.isUpper then
    ofLetters (fun text => (Constant.ofName? text).map .constant)
      (char :: rest.takeWhile Char.isUpper)
  else if char.isLower then
    ofLetters (fun text => (UnaryFunction.ofName? text).map .function)
      (char :: rest.takeWhile Char.isLower)
  else ofSign char

end Lexeme

/-! ### The lexer -/

namespace Token

/-- Goes through the characters from a position on. The first `covered` of them belong to the
lexeme read last; `found` holds the tokens so far, the last one first. -/
def scan : List Char → Nat → Nat → List Token → Except Fault (List Token)
  | [], position, _, found => .ok (stop position :: found).reverse
  | _ :: rest, position, covered + 1, found => scan rest (position + 1) covered found
  | char :: rest, position, 0, found =>
    match Lexeme.read char rest with
    | .blank => scan rest (position + 1) 0 found
    | .word kind text =>
      scan rest (position + 1) (text.length - 1) (⟨kind, String.ofList text, position⟩ :: found)
    | .unknown text => .error (.unknownWord (String.ofList text) position)

/-- The tokens of a text, ending with the token for the end of the input. -/
def lex (text : String) : Except Fault (List Token) :=
  scan text.toList 0 0 []

end Token

end DeskCalculator
