/-
This file defines JSON documents. Leaves stand as they are written: a number as
its literal, because a reader decides which numbers it accepts, and a string
with its escapes, because some escapes stand for no character. Texts are
escaped on the way in and unescaped on the way out.
-/

import DeskCalculator.Decimal.Text

namespace DeskCalculator

/-- A JSON document. -/
inductive Json where
  | null
  | boolean (value : Bool)
  | number (literal : List Char)
  | string (escaped : List Char)
  | array (items : List Json)
  | object (members : List (List Char × Json))

namespace Json

/-! ### Escapes -/

/-- The four hexadecimal digits of a control character, in small letters. -/
def hexadecimal (code : Nat) : List Char :=
  let digits := Nat.toDigits 16 code
  List.replicate (4 - digits.length) '0' ++ digits

/-- A character as it stands between quotes: quotes, backslashes and control characters are
escaped, and nothing else is. -/
def escapeChar (char : Char) : List Char :=
  match char with
  | '"' => ['\\', '"']
  | '\\' => ['\\', '\\']
  | '\n' => ['\\', 'n']
  | '\r' => ['\\', 'r']
  | '\t' => ['\\', 't']
  | '\x08' => ['\\', 'b']
  | '\x0c' => ['\\', 'f']
  | _ => if char.toNat < 0x20 then '\\' :: 'u' :: hexadecimal char.toNat else [char]

/-- The value of a hexadecimal digit. -/
def hexadecimalDigit? (char : Char) : Option Nat :=
  if char.isDigit then some (char.toNat - '0'.toNat)
  else if 'a' ≤ char && char ≤ 'f' then some (char.toNat - 'a'.toNat + 10)
  else if 'A' ≤ char && char ≤ 'F' then some (char.toNat - 'A'.toNat + 10)
  else none

/-- The code unit that four hexadecimal digits spell. -/
def codeUnit? (first second third fourth : Char) : Option Nat := do
  let first ← hexadecimalDigit? first
  let second ← hexadecimalDigit? second
  let third ← hexadecimalDigit? third
  let fourth ← hexadecimalDigit? fourth
  return ((first * 16 + second) * 16 + third) * 16 + fourth

/-- The character that a one-letter escape stands for. -/
def letterEscape? (letter : Char) : Option Char :=
  match letter with
  | '"' => some '"'
  | '\\' => some '\\'
  | '/' => some '/'
  | 'b' => some '\x08'
  | 'f' => some '\x0c'
  | 'n' => some '\n'
  | 'r' => some '\r'
  | 't' => some '\t'
  | _ => none

/-- Whether a code unit is the first half of a pair. -/
def isLeading (unit : Nat) : Bool :=
  0xD800 ≤ unit && unit < 0xDC00

/-- Whether a code unit is the second half of a pair. -/
def isTrailing (unit : Nat) : Bool :=
  0xDC00 ≤ unit && unit < 0xE000

/-- The character that a pair of code units stands for. -/
def pairedChar (leading trailing : Nat) : Char :=
  Char.ofNat (0x10000 + (leading - 0xD800) * 0x400 + (trailing - 0xDC00))

/-- Replaces the escapes by the characters that they stand for. A half pair alone stands for no
character, and a text with one cannot be unescaped. The half that awaits its other half is
`leading?`. -/
def unescape? (leading? : Option Nat) : List Char → Option (List Char)
  | [] => if leading?.isSome then none else some []
  | '\\' :: 'u' :: first :: second :: third :: fourth :: rest =>
    match codeUnit? first second third fourth, leading? with
    | none, _ => none
    | some unit, some leading =>
      if isTrailing unit then (unescape? none rest).map (pairedChar leading unit :: ·) else none
    | some unit, none =>
      if isLeading unit then unescape? (some unit) rest
      else if isTrailing unit then none
      else (unescape? none rest).map (Char.ofNat unit :: ·)
  | '\\' :: letter :: rest =>
    if leading?.isSome then none
    else (letterEscape? letter).bind fun char => (unescape? none rest).map (char :: ·)
  | char :: rest => if leading?.isSome then none else (unescape? none rest).map (char :: ·)

/-! ### Texts and numbers -/

/-- A text as a document. -/
def ofText (text : String) : Json :=
  .string (text.toList.flatMap escapeChar)

/-- The text of a document, if it is a string whose escapes all stand for characters. -/
def text? : Json → Option String
  | .string escaped => (unescape? none escaped).map String.ofList
  | _ => none

/-- A natural number as a document. -/
def ofNat (value : Nat) : Json :=
  .number (Nat.toDigits 10 value)

/-- The least exponent of a leading digit for which a float is written positionally. -/
def leastPositional : Int := -5

/-- The greatest exponent of a leading digit for which a float is written positionally. -/
def greatestPositional : Int := 15

/-- The literal of a shortest decimal: with a fraction where it is written positionally, and with
an exponent where that would be long. -/
def decimalLiteral (decimal : Decimal) : List Char :=
  let exponent := decimal.leadingExponent
  if leastPositional ≤ exponent && exponent ≤ greatestPositional then
    if 0 ≤ decimal.exponent then decimal.positional ++ ['.', '0'] else decimal.positional
  else
    decimal.mantissa ++ 'e' :: Decimal.signedDigits exponent

/-- A float as a document: its shortest decimal, with the sign of a zero. An exact tie between two
shortest decimals goes to the even digit. What is no finite number is null. -/
def ofFloat (value : Float) : Json :=
  if !value.isFinite then .null
  else
    .number <| Decimal.signed (Binary.isNegative value) <|
      if Binary.rank value = 0 then ['0', '.', '0']
      else decimalLiteral (Decimal.shortest .even (Binary.rank value))

end Json

end DeskCalculator
