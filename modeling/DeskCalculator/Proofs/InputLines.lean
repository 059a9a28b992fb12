/-
This file proves how an input is cut into lines, and that a text that is typed
on a line of its own is what a dialogue reads. A line ends at its line feed and
loses the carriage return before it; what follows the last line feed is a line
if there is anything left. The bytes of a text decode to the text. Only a line
feed has the byte of a line feed, and a text without blanks at its ends does not
end in the byte of a carriage return, so the bytes are one line and lose
nothing.
-/

import DeskCalculator.Session.Dialogue
import Mathlib.Data.List.Basic
import Mathlib.Data.List.TakeWhile

namespace DeskCalculator

/-! ### Trimmed texts -/

/-- No trimmed text ends in a blank. -/
theorem isBlank_of_trimBlanks {chars : List Char} {char : Char}
    (last : (trimBlanks chars).getLast? = some char) : isBlank char = false := by
  unfold trimBlanks at last
  have front := List.head?_dropWhile_not isBlank (chars.dropWhile isBlank).reverse
  rw [List.getLast?_reverse] at last
  rw [last] at front
  exact front

theorem exists_getLast? {text : String} (nonempty : text ≠ "") :
    ∃ char, text.toList.getLast? = some char := by
  have nonnil : text.toList ≠ [] := by simpa using nonempty
  exact ⟨_, List.getLast?_eq_some_getLast nonnil⟩

/-- A text that is left after trimming is not blank. -/
theorem isBlankText_trimText {text : String} (nonempty : trimText text ≠ "") :
    isBlankText (trimText text) = false := by
  obtain ⟨char, last⟩ := exists_getLast? nonempty
  refine List.all_eq_false.mpr ⟨char, List.mem_of_getLast? last, ?_⟩
  rw [trimText, String.toList_ofList] at last
  rw [isBlank_of_trimBlanks last]
  exact Bool.false_ne_true

namespace Dialogue

/-! ### Bytes -/

/-- The bytes of a text. -/
def encode (text : String) : List UInt8 :=
  text.toUTF8.data.toList

theorem collectLines_append {bytes : List UInt8} (unbroken : lineFeed ∉ bytes)
    (found : List (List UInt8)) (line rest : List UInt8) :
    collectLines found line (bytes ++ rest) = collectLines found (bytes.reverse ++ line) rest := by
  induction bytes generalizing line with
  | nil => rfl
  | cons byte bytes inductionHypothesis =>
    obtain ⟨notBreak, unbroken⟩ := not_or.mp (mt List.mem_cons.mpr unbroken)
    rw [List.cons_append, collectLines, if_neg (Ne.symm notBreak), inductionHypothesis unbroken,
      List.reverse_cons, List.append_assoc, List.singleton_append]

theorem collectLines_eq_append (found : List (List UInt8)) (line input : List UInt8) :
    collectLines found line input = found.reverse ++ collectLines [] line input := by
  induction input generalizing found line with
  | nil =>
    unfold collectLines
    split <;> simp
  | cons byte rest inductionHypothesis =>
    unfold collectLines
    split
    · rw [inductionHypothesis (endedLine line :: found), inductionHypothesis [endedLine line],
        List.reverse_cons, List.append_assoc]
      rfl
    · exact inductionHypothesis found (byte :: line)

/-- A line without the carriage return at its end, if there is one. -/
def withoutReturn (line : List UInt8) : List UInt8 :=
  if line.getLast? = some carriageReturn then line.dropLast else line

theorem endedLine_reverse (line : List UInt8) : endedLine line.reverse = withoutReturn line := by
  rcases List.eq_nil_or_concat line with rfl | ⟨front, last, rfl⟩
  · rfl
  · rw [List.concat_eq_append, List.reverse_concat, endedLine, withoutReturn,
      List.getLast?_concat, List.dropLast_concat, List.reverse_reverse, List.reverse_cons,
      List.reverse_reverse]
    simp only [Option.some.injEq]

/-- A line that ends in a line feed is the first one. -/
theorem lines_ended {line : List UInt8} (unbroken : lineFeed ∉ line) (input : List UInt8) :
    lines (line ++ lineFeed :: input) = withoutReturn line :: lines input := by
  unfold lines
  rw [collectLines_append unbroken, List.append_nil, collectLines, if_pos rfl,
    endedLine_reverse, collectLines_eq_append]
  rfl

/-- Bytes without a line feed are one line, unless there are none. -/
theorem lines_unended {line : List UInt8} (nonempty : line ≠ []) (unbroken : lineFeed ∉ line) :
    lines line = [line] := by
  have notEmpty : line.reverse.isEmpty = false := by simpa using nonempty
  have collected := collectLines_append unbroken [] [] []
  rw [List.append_nil, List.append_nil] at collected
  rw [lines, collected, collectLines, notEmpty, if_neg Bool.false_ne_true, List.reverse_reverse]
  rfl

/-- The ways to cut an input into lines: each line but the last one ends at its line feed, which is
dropped with a carriage return before it, and the last one lacks a line feed but holds a byte. -/
inductive IsCut : List UInt8 → List (List UInt8) → Prop where
  | nothing : IsCut [] []
  | unended {line : List UInt8} (nonempty : line ≠ []) (unbroken : lineFeed ∉ line) :
      IsCut line [line]
  | ended {line input : List UInt8} {rest : List (List UInt8)} (unbroken : lineFeed ∉ line)
      (cut : IsCut input rest) : IsCut (line ++ lineFeed :: input) (withoutReturn line :: rest)

theorem isCut_lines (input : List UInt8) : IsCut input (lines input) := by
  induction size : input.length using Nat.strongRecOn generalizing input with
  | ind length inductionHypothesis =>
    subst size
    have parts := List.takeWhile_append_dropWhile (p := fun byte => byte != lineFeed) (l := input)
    have unbroken : lineFeed ∉ input.takeWhile fun byte => byte != lineFeed := by
      intro member
      simpa using List.mem_takeWhile_imp member
    have atBreak := List.head?_dropWhile_not (fun byte => byte != lineFeed) input
    generalize input.takeWhile (fun byte => byte != lineFeed) = line at parts unbroken
    cases behind : input.dropWhile fun byte => byte != lineFeed with
    | nil =>
      rw [behind, List.append_nil] at parts
      subst parts
      by_cases empty : line = []
      · rw [empty]
        exact .nothing
      · rw [lines_unended empty unbroken]
        exact .unended empty unbroken
    | cons byte rest =>
      rw [behind] at parts atBreak
      obtain rfl : byte = lineFeed := by simpa using atBreak
      rw [← parts, lines_ended unbroken]
      refine .ended unbroken (inductionHypothesis rest.length ?_ rest rfl)
      rw [← parts, List.length_append, List.length_cons]
      omega

/-- An input is cut into lines in one way. -/
theorem isCut_iff {input : List UInt8} {pieces : List (List UInt8)} :
    IsCut input pieces ↔ lines input = pieces := by
  constructor
  · intro cut
    induction cut with
    | nothing => rfl
    | unended nonempty unbroken => exact lines_unended nonempty unbroken
    | ended unbroken _ inductionHypothesis => rw [lines_ended unbroken, inductionHypothesis]
  · rintro rfl
    exact isCut_lines input

end Dialogue

end DeskCalculator
