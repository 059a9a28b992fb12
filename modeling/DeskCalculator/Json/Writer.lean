/-
This file writes JSON documents: over several lines, with two spaces for every
level and one member or item on a line, or without any blanks on one line.
-/

import DeskCalculator.Json.Basic

namespace DeskCalculator.Json

/-- An escaped text between quotes. -/
def quoted (escaped : List Char) : List Char :=
  '"' :: escaped ++ ['"']

/-! ### Several lines -/

/-- A line break and the spaces of a level. -/
def lineBreak (level : Nat) : List Char :=
  '\n' :: List.replicate (2 * level) ' '

mutual

/-- The characters of a document at a level. -/
def write (level : Nat) : Json → List Char
  | .null => ['n', 'u', 'l', 'l']
  | .boolean true => ['t', 'r', 'u', 'e']
  | .boolean false => ['f', 'a', 'l', 's', 'e']
  | .number literal => literal
  | .string escaped => quoted escaped
  | .array [] => ['[', ']']
  | .array (item :: items) =>
    '[' :: lineBreak (level + 1) ++ write (level + 1) item ++ writeItems (level + 1) items ++
      lineBreak level ++ [']']
  | .object [] => ['\x7b', '\x7d']
  | .object ((key, value) :: members) =>
    '\x7b' :: lineBreak (level + 1) ++ quoted key ++ ':' :: ' ' :: write (level + 1) value ++
      writeMembers (level + 1) members ++ lineBreak level ++ ['\x7d']

/-- The further items of an array, each on a line of its own. -/
def writeItems (level : Nat) : List Json → List Char
  | [] => []
  | item :: items => ',' :: lineBreak level ++ write level item ++ writeItems level items

/-- The further members of an object, each on a line of its own. -/
def writeMembers (level : Nat) : List (List Char × Json) → List Char
  | [] => []
  | (key, value) :: members =>
    ',' :: lineBreak level ++ quoted key ++ ':' :: ' ' :: write level value ++
      writeMembers level members

end

/-- The text of a document over several lines. -/
def pretty (document : Json) : String :=
  String.ofList (write 0 document)

/-! ### One line -/

mutual

/-- The characters of a document without blanks between its parts. -/
def writeCompact : Json → List Char
  | .null => ['n', 'u', 'l', 'l']
  | .boolean true => ['t', 'r', 'u', 'e']
  | .boolean false => ['f', 'a', 'l', 's', 'e']
  | .number literal => literal
  | .string escaped => quoted escaped
  | .array [] => ['[', ']']
  | .array (item :: items) => '[' :: writeCompact item ++ writeCompactItems items ++ [']']
  | .object [] => ['\x7b', '\x7d']
  | .object ((key, value) :: members) =>
    '\x7b' :: quoted key ++ ':' :: writeCompact value ++ writeCompactMembers members ++ ['\x7d']

/-- The further items of an array, each after a comma. -/
def writeCompactItems : List Json → List Char
  | [] => []
  | item :: items => ',' :: writeCompact item ++ writeCompactItems items

/-- The further members of an object, each after a comma. -/
def writeCompactMembers : List (List Char × Json) → List Char
  | [] => []
  | (key, value) :: members =>
    ',' :: quoted key ++ ':' :: writeCompact value ++ writeCompactMembers members

end

/-- The text of a document on one line. -/
def compact (document : Json) : String :=
  String.ofList (writeCompact document)

end DeskCalculator.Json
