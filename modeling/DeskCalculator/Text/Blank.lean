/-
This file says which characters are blank, and cuts blanks off the two ends of
a text. The lexer skips blanks, and a typed line is read without the blanks
around it.
-/

namespace DeskCalculator

/-- The code points with the Unicode property White_Space, as closed ranges. -/
def blankRanges : List (Nat × Nat) :=
  [(0x9, 0xD), (0x20, 0x20), (0x85, 0x85), (0xA0, 0xA0), (0x1680, 0x1680), (0x2000, 0x200A),
   (0x2028, 0x2029), (0x202F, 0x202F), (0x205F, 0x205F), (0x3000, 0x3000)]

/-- A character is blank when a White_Space range holds its code point. -/
def isBlank (char : Char) : Bool :=
  blankRanges.any fun range => decide (range.1 ≤ char.toNat) && decide (char.toNat ≤ range.2)

/-- The characters without the blanks before the first and after the last other character. -/
def trimBlanks (chars : List Char) : List Char :=
  ((chars.dropWhile isBlank).reverse.dropWhile isBlank).reverse

/-- The text without the blanks at its two ends. -/
def trimText (text : String) : String :=
  String.ofList (trimBlanks text.toList)

/-- A text is blank when it holds no other character. -/
def isBlankText (text : String) : Bool :=
  text.toList.all isBlank

end DeskCalculator
