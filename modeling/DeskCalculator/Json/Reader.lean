/-
This file reads JSON documents. The text has to be one document with blanks
around it: numbers without leading zeros, strings without bare control
characters and with escapes of the known forms, no comma before a closing
bracket, and nothing after the document. Every reader takes its part off the
front of the characters and returns the rest.
-/

import DeskCalculator.Json.Basic

namespace DeskCalculator.Json

/-! ### Blanks and words -/

/-- The blanks of the format: space, tab, line feed and carriage return. -/
def isSpace (char : Char) : Bool :=
  char == ' ' || char == '\t' || char == '\n' || char == '\r'

/-- The characters after the blanks at the front. -/
def skipSpaces (chars : List Char) : List Char :=
  chars.dropWhile isSpace

/-- The characters after a word at the front. -/
def dropWord? (word : List Char) (chars : List Char) : Option (List Char) :=
  if word.isPrefixOf chars then some (chars.drop word.length) else none

/-! ### Numbers -/

/-- Splits the digits off the front. -/
def splitDigits (chars : List Char) : List Char × List Char :=
  (chars.takeWhile Char.isDigit, chars.dropWhile Char.isDigit)

/-- Splits an integer part off: digits, at least one, and more than one only if the first is not
zero. -/
def readWhole? (chars : List Char) : Option (List Char × List Char) :=
  match splitDigits chars with
  | ([], _) => none
  | ('0' :: _ :: _, _) => none
  | (digits, rest) => some (digits, rest)

/-- Splits a fraction off: a point and digits, at least one, or nothing. -/
def readFraction? (chars : List Char) : Option (List Char × List Char) :=
  match chars with
  | '.' :: rest =>
    match splitDigits rest with
    | ([], _) => none
    | (digits, rest) => some ('.' :: digits, rest)
  | _ => some ([], chars)

/-- Splits the sign of an exponent off. -/
def splitExponentSign (chars : List Char) : List Char × List Char :=
  match chars with
  | '+' :: rest => (['+'], rest)
  | '-' :: rest => (['-'], rest)
  | _ => ([], chars)

/-- Splits an exponent off: its letter, an optional sign and digits, at least one, or nothing. -/
def readExponent? (chars : List Char) : Option (List Char × List Char) :=
  match chars with
  | letter :: rest =>
    if letter == 'e' || letter == 'E' then
      let (sign, rest) := splitExponentSign rest
      match splitDigits rest with
      | ([], _) => none
      | (digits, rest) => some (letter :: sign ++ digits, rest)
    else some ([], chars)
  | [] => some ([], [])

/-- Splits an unsigned number off. -/
def readUnsigned? (chars : List Char) : Option (List Char × List Char) := do
  let (whole, rest) ← readWhole? chars
  let (fraction, rest) ← readFraction? rest
  let (exponent, rest) ← readExponent? rest
  return (whole ++ fraction ++ exponent, rest)

/-- Splits the literal of a number off. -/
def readNumber? (chars : List Char) : Option (List Char × List Char) :=
  match chars with
  | '-' :: rest => (readUnsigned? rest).map fun (literal, rest) => ('-' :: literal, rest)
  | _ => readUnsigned? chars

/-! ### Strings -/

/-- Splits a string off after its opening quote, up to its closing quote. The escapes stay as
they are written; their form is checked, but not whether they stand for a character. -/
def readString? : List Char → Option (List Char × List Char)
  | [] => none
  | '"' :: rest => some ([], rest)
  | '\\' :: 'u' :: first :: second :: third :: fourth :: rest =>
    if (codeUnit? first second third fourth).isSome then
      (readString? rest).map fun (escaped, rest) =>
        ('\\' :: 'u' :: first :: second :: third :: fourth :: escaped, rest)
    else none
  | '\\' :: letter :: rest =>
    if (letterEscape? letter).isSome then
      (readString? rest).map fun (escaped, rest) => ('\\' :: letter :: escaped, rest)
    else none
  | char :: rest =>
    if char.toNat < 0x20 || char == '\\' then none
    else (readString? rest).map fun (escaped, rest) => (char :: escaped, rest)

/-- Splits a key off: a string, and the colon after it. -/
def readKey? (chars : List Char) : Option (List Char × List Char) :=
  match skipSpaces chars with
  | '"' :: rest => do
    let (key, rest) ← readString? rest
    let rest ← dropWord? [':'] (skipSpaces rest)
    return (key, rest)
  | _ => none

/-! ### Documents -/

mutual

/-- Splits a document off. Every step down takes from the given number of steps. -/
def readValue? : Nat → List Char → Option (Json × List Char)
  | 0, _ => none
  | steps + 1, chars =>
    match skipSpaces chars with
    | '"' :: rest => (readString? rest).map fun (escaped, rest) => (.string escaped, rest)
    | '[' :: rest =>
      match skipSpaces rest with
      | ']' :: rest => some (.array [], rest)
      | rest => (readItems? steps rest).map fun (items, rest) => (.array items, rest)
    | '\x7b' :: rest =>
      match skipSpaces rest with
      | '\x7d' :: rest => some (.object [], rest)
      | rest => (readMembers? steps rest).map fun (members, rest) => (.object members, rest)
    | 'n' :: rest => (dropWord? ['u', 'l', 'l'] rest).map fun rest => (.null, rest)
    | 't' :: rest => (dropWord? ['r', 'u', 'e'] rest).map fun rest => (.boolean true, rest)
    | 'f' :: rest =>
      (dropWord? ['a', 'l', 's', 'e'] rest).map fun rest => (.boolean false, rest)
    | rest => (readNumber? rest).map fun (literal, rest) => (.number literal, rest)

/-- Splits the items of an array off, at least one, and the closing bracket. -/
def readItems? : Nat → List Char → Option (List Json × List Char)
  | 0, _ => none
  | steps + 1, chars => do
    let (item, rest) ← readValue? steps chars
    match skipSpaces rest with
    | ',' :: rest =>
      let (items, rest) ← readItems? steps rest
      return (item :: items, rest)
    | ']' :: rest => return ([item], rest)
    | _ => none

/-- Splits the members of an object off, at least one, and the closing brace. -/
def readMembers? : Nat → List Char → Option (List (List Char × Json) × List Char)
  | 0, _ => none
  | steps + 1, chars => do
    let (key, rest) ← readKey? chars
    let (value, rest) ← readValue? steps rest
    match skipSpaces rest with
    | ',' :: rest =>
      let (members, rest) ← readMembers? steps rest
      return ((key, value) :: members, rest)
    | '\x7d' :: rest => return ([(key, value)], rest)
    | _ => none

end

/-- Reads a text as one document. A step down takes at least one character off for every two
steps, so the steps suffice for every text. -/
def read? (text : String) : Option Json :=
  let chars := text.toList
  match readValue? (2 * chars.length + 2) chars with
  | some (document, rest) => if (skipSpaces rest).isEmpty then some document else none
  | none => none

end DeskCalculator.Json
