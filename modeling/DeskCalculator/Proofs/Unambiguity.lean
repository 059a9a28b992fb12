/-
This file proves that the text of a tree determines the tree, however high it
is and whatever its numbers are, infinities and numbers with a sign included.
The parser takes no part in it: it knows no such numbers and has a limit. The
first character tells the form of a tree, and the text of a number ends where
its characters end, so that a tree is cancelled from the front of a text without
losing the place where it ends.
-/

import DeskCalculator.Proofs.Printing

namespace DeskCalculator

open Binary (rank isNegative ofRank infinityRank)

/-- Runs of one class of characters are cancelled from the front of a text, with the places where
they end. -/
theorem run_append_inj {isMember : Char → Bool} {run otherRun behind other : List Char}
    (inside : ∀ char ∈ run, isMember char = true)
    (otherInside : ∀ char ∈ otherRun, isMember char = true)
    (ended : ∀ next ∈ behind.head?, isMember next = false)
    (otherEnded : ∀ next ∈ other.head?, isMember next = false)
    (same : run ++ behind = otherRun ++ other) : run = otherRun ∧ behind = other := by
  have cut := congrArg (List.takeWhile isMember) same
  rw [takeWhile_append_of_ended inside ended,
    takeWhile_append_of_ended otherInside otherEnded] at cut
  rw [cut, List.append_cancel_left_eq] at same
  exact ⟨cut, same⟩

/-! ### Texts of numbers -/

namespace Text

/-- The characters with which texts of numbers start. -/
def isLeading (char : Char) : Bool :=
  char.isDigit || char == '-' || char == 'i'

/-- The characters of texts of numbers. -/
def isInside (char : Char) : Bool :=
  Lexeme.isNumeralChar char || ['-', 'i', 'n', 'f'].contains char

theorem rank_magnitude {value : Float} (number : value.isNaN = false) :
    rank (ofRank false (rank value)) = rank value := by
  cases infinite : value.isInf with
  | true =>
    rw [Binary.rank_of_isInf infinite]
    decide
  | false =>
    have finite := Binary.isFinite_of_number number infinite
    exact Binary.rank_ofRank false ((Binary.isFinite_iff value).mp finite)

/-- The text of a number is the text of its magnitude, with a minus sign for a sign bit. -/
theorem toList_plain {value : Float} (number : value.isNaN = false) :
    (plain value).toList =
      Decimal.signed (isNegative value) (plain (ofRank false (rank value))).toList := by
  cases infinite : value.isInf with
  | true =>
    have magnitude : (plain (ofRank false infinityRank)).toList = ['i', 'n', 'f'] := by decide
    rw [Binary.rank_of_isInf infinite, magnitude]
    unfold plain
    rw [number, infinite]
    simp
  | false =>
    have below := (Binary.isFinite_iff value).mp (Binary.isFinite_of_number number infinite)
    have finite := Binary.isFinite_ofRank false below
    unfold plain
    rw [number, infinite, Binary.isNaN_of_isFinite finite, Binary.isInf_of_isFinite finite,
      Binary.rank_ofRank false below, Binary.isNegative_ofRank false below]
    simp [Decimal.signed]

/-- The text of a magnitude reads back, and only its numeral characters or the word for infinity
stand in it. -/
theorem plain_magnitude {value : Float} (number : value.isNaN = false) :
    Numeral.read? (plain (ofRank false (rank value))) = some (ofRank false (rank value)) ∧
      ∃ first more, (plain (ofRank false (rank value))).toList = first :: more ∧
        (first.isDigit = true ∨ first = 'i') ∧ ∀ char ∈ first :: more, isInside char = true := by
  cases infinite : value.isInf with
  | true =>
    rw [Binary.rank_of_isInf infinite]
    exact ⟨by decide, 'i', ['n', 'f'], by decide, .inr rfl, List.all_eq_true.mp rfl⟩
  | false =>
    have below := (Binary.isFinite_iff value).mp (Binary.isFinite_of_number number infinite)
    have finite := Binary.isFinite_ofRank false below
    have positive := Binary.isNegative_ofRank false below
    obtain ⟨digit, more, spelled, isDigit, numeral⟩ := plain_spells finite positive
    refine ⟨read?_plain finite positive, digit, more, spelled, .inl isDigit, fun char member => ?_⟩
    refine Bool.or_eq_true_iff.mpr (.inl ?_)
    rcases List.mem_cons.mp member with rfl | later
    · exact Bool.or_eq_true_iff.mpr (.inl isDigit)
    · exact numeral char later

theorem plain_inside {value : Float} (number : value.isNaN = false) :
    ∀ char ∈ (plain value).toList, isInside char = true := by
  obtain ⟨_, first, more, magnitude_eq, _, inside⟩ := plain_magnitude number
  rw [toList_plain number, magnitude_eq]
  cases isNegative value with
  | false => exact inside
  | true => exact List.forall_mem_cons.mpr ⟨rfl, inside⟩

theorem exists_leading_plain {value : Float} (number : value.isNaN = false) :
    ∃ first more, (plain value).toList = first :: more ∧ isLeading first = true := by
  obtain ⟨_, first, more, magnitude_eq, leading, _⟩ := plain_magnitude number
  rw [toList_plain number, magnitude_eq]
  cases isNegative value with
  | true => exact ⟨'-', first :: more, rfl, rfl⟩
  | false =>
    refine ⟨first, more, rfl, ?_⟩
    rcases leading with isDigit | rfl
    · rw [isLeading, isDigit]
      rfl
    · rfl

/-- Numbers with one text are the same float: the minus sign tells the sign bit, and the magnitude
is read back. -/
theorem eq_of_plain_eq {value other : Float} (number : value.isNaN = false)
    (otherNumber : other.isNaN = false) (same : plain value = plain other) : value = other := by
  obtain ⟨read, first, more, magnitude_eq, leading, _⟩ := plain_magnitude number
  obtain ⟨otherRead, otherFirst, otherMore, otherMagnitude_eq, otherLeading, _⟩ :=
    plain_magnitude otherNumber
  have noMinus : ∀ {char : Char}, char.isDigit = true ∨ char = 'i' → char ≠ '-' := by
    rintro _ (isDigit | isLetter) rfl
    · cases isDigit
    · cases isLetter
  have chars := congrArg String.toList same
  rw [toList_plain number, toList_plain otherNumber] at chars
  have parts : isNegative value = isNegative other ∧
      plain (ofRank false (rank value)) = plain (ofRank false (rank other)) := by
    rw [← String.toList_inj, magnitude_eq, otherMagnitude_eq]
    rw [magnitude_eq, otherMagnitude_eq] at chars
    cases negative : isNegative value <;> cases otherNegative : isNegative other <;>
      rw [negative, otherNegative] at chars
    · exact ⟨rfl, chars⟩
    · exact absurd (List.cons.inj chars).1 (noMinus leading)
    · exact absurd (List.cons.inj chars).1.symm (noMinus otherLeading)
    · exact ⟨rfl, (List.cons.inj chars).2⟩
  rw [parts.2, otherRead, Option.some.injEq] at read
  have sameRank : rank value = rank other := by
    rw [← rank_magnitude number, ← rank_magnitude otherNumber, read]
  rw [← Binary.ofRank_rank value, ← Binary.ofRank_rank other, parts.1, sameRank]

end Text

namespace Expr

/-! ### Texts of trees -/

/-- Every leaf of the tree is a number; it may be infinite or have a sign. -/
def HasNumbers : Expr → Prop
  | number value => value.isNaN = false
  | binary _ left right => left.HasNumbers ∧ right.HasNumbers
  | call _ argument => argument.HasNumbers

/-- The forms of trees. -/
inductive Form where
  | number
  | binary
  | call
  deriving DecidableEq

/-- The form of a tree. -/
def form : Expr → Form
  | number _ => .number
  | binary .. => .binary
  | call .. => .call

/-- The form that the first character of the text of a tree tells. -/
def Form.ofLead (lead : Char) : Form :=
  if Text.isLeading lead then .number else if lead = '(' then .binary else .call

theorem exists_lead {expr : Expr} (numbers : expr.HasNumbers) :
    ∃ lead more, expr.text.toList = lead :: more ∧ Form.ofLead lead = expr.form := by
  cases expr with
  | number value =>
    obtain ⟨lead, more, lead_eq, leading⟩ := Text.exists_leading_plain numbers
    exact ⟨lead, more, by rw [text_number, lead_eq], if_pos leading⟩
  | binary operator left right => exact ⟨'(', _, toList_text_binary operator left right, rfl⟩
  | call function argument =>
    have named : ∃ lead more, function.name.toList = lead :: more ∧ Form.ofLead lead = .call := by
      cases function <;> exact ⟨_, _, rfl, rfl⟩
    obtain ⟨lead, more, name_eq, lead_form⟩ := named
    rw [toList_text_call, name_eq]
    exact ⟨lead, _, rfl, lead_form⟩

theorem form_eq_of_text {first second : Expr} (numbers : first.HasNumbers)
    (otherNumbers : second.HasNumbers) {behind other : List Char}
    (same : first.text.toList ++ behind = second.text.toList ++ other) :
    first.form = second.form := by
  obtain ⟨lead, more, lead_eq, lead_form⟩ := exists_lead numbers
  obtain ⟨otherLead, otherMore, otherLead_eq, otherLead_form⟩ := exists_lead otherNumbers
  rw [lead_eq, otherLead_eq] at same
  obtain ⟨rfl, _⟩ := List.cons.inj same
  exact lead_form.symm.trans otherLead_form

/-- The name of a function ends before the parenthesis. -/
theorem name_append_inj {function other : UnaryFunction} {behind otherBehind : List Char}
    (same : function.name.toList ++ '(' :: behind = other.name.toList ++ '(' :: otherBehind) :
    function = other ∧ behind = otherBehind := by
  have letters : ∀ {function : UnaryFunction}, ∀ char ∈ function.name.toList,
      (char != '(') = true := by
    intro function
    rw [← List.all_eq_true]
    cases function <;> decide
  obtain ⟨sameName, sameRest⟩ := run_append_inj letters letters (by simp) (by simp) same
  have found := UnaryFunction.ofName?_name function
  rw [String.toList_inj.mp sameName, UnaryFunction.ofName?_name, Option.some.injEq] at found
  exact ⟨found.symm, (List.cons.inj sameRest).2⟩

/-- A tree is cancelled from the front of a text, with the place where it ends. What stands behind
it must not go on with the text of a number. -/
theorem text_append_inj {first second : Expr} (numbers : first.HasNumbers)
    (otherNumbers : second.HasNumbers) {behind other : List Char}
    (ended : ∀ next ∈ behind.head?, Text.isInside next = false)
    (otherEnded : ∀ next ∈ other.head?, Text.isInside next = false)
    (same : first.text.toList ++ behind = second.text.toList ++ other) :
    first = second ∧ behind = other := by
  have notInside : ∀ {char : Char} {rest : List Char}, Text.isInside char = false →
      ∀ next ∈ (char :: rest).head?, Text.isInside next = false := by
    rintro char rest outside _ ⟨⟩
    exact outside
  induction first generalizing second behind other with
  | number value =>
    cases second with
    | number otherValue =>
      rw [text_number, text_number] at same
      obtain ⟨sameText, sameRest⟩ := run_append_inj (Text.plain_inside numbers)
        (Text.plain_inside otherNumbers) ended otherEnded same
      have sameValue := Text.eq_of_plain_eq numbers otherNumbers (String.toList_inj.mp sameText)
      exact ⟨congrArg Expr.number sameValue, sameRest⟩
    | _ => cases form_eq_of_text numbers otherNumbers same
  | binary operator left right leftHypothesis rightHypothesis =>
    cases second with
    | binary otherOperator otherLeft otherRight =>
      simp only [toList_text_binary, List.append_assoc, List.cons_append, List.nil_append,
        List.cons.injEq, true_and] at same
      obtain ⟨rfl, afterLeft⟩ := leftHypothesis numbers.1 otherNumbers.1 (notInside rfl)
        (notInside rfl) same
      simp only [List.cons.injEq, true_and] at afterLeft
      obtain ⟨sameSymbol, afterSymbol⟩ := afterLeft
      obtain ⟨rfl, afterRight⟩ := rightHypothesis numbers.2 otherNumbers.2 (notInside rfl)
        (notInside rfl) afterSymbol
      have found := Operator.ofSymbol?_symbol operator
      rw [sameSymbol, Operator.ofSymbol?_symbol, Option.some.injEq] at found
      subst found
      exact ⟨rfl, (List.cons.inj afterRight).2⟩
    | _ => cases form_eq_of_text numbers otherNumbers same
  | call function argument inductionHypothesis =>
    cases second with
    | call otherFunction otherArgument =>
      simp only [toList_text_call, List.append_assoc, List.cons_append, List.nil_append] at same
      obtain ⟨rfl, afterName⟩ := name_append_inj same
      have argumentNumbers : otherArgument.HasNumbers := otherNumbers
      obtain ⟨rfl, afterArgument⟩ := inductionHypothesis numbers argumentNumbers (notInside rfl)
        (notInside rfl) afterName
      exact ⟨rfl, (List.cons.inj afterArgument).2⟩
    | _ => cases form_eq_of_text numbers otherNumbers same

/-- Trees of numbers with the same text are the same tree, with the same numbers to the bit. -/
theorem text_inj {first second : Expr} (numbers : first.HasNumbers)
    (otherNumbers : second.HasNumbers) : first.text = second.text ↔ first = second := by
  refine ⟨fun same => ?_, congrArg text⟩
  have chars : first.text.toList ++ [] = second.text.toList ++ [] := by rw [same]
  exact (text_append_inj numbers otherNumbers (by simp) (by simp) chars).1

/-- The tree of `2 - -1`, whose right operand is a number with a sign. -/
def differenceOfNegative : Expr :=
  .binary .subtract (.number 2) (.number (-1))

/-- The tree of `2 - (0 - 1)`, whose right operand is a negation. -/
def differenceOfNegation : Expr :=
  .binary .subtract (.number 2) (negate (.number 1))

/-- A number with a sign is told from a negation. -/
theorem text_inj_signs : differenceOfNegative.HasNumbers ∧ differenceOfNegation.HasNumbers ∧
    differenceOfNegative.text ≠ differenceOfNegation.text := by
  have numbers : differenceOfNegative.HasNumbers := ⟨rfl, rfl⟩
  have otherNumbers : differenceOfNegation.HasNumbers := ⟨rfl, rfl, rfl⟩
  refine ⟨numbers, otherNumbers, fun same => ?_⟩
  cases (text_inj numbers otherNumbers).mp same

end Expr

end DeskCalculator
