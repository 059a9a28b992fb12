/-
This file says which texts the calculator accepts, by a grammar that is simpler
than the one it reads by: any two expressions may be joined by any operator, and
any expression may be negated, with blanks wherever no word is cut. The simple
grammar does not say how an expression is grouped, but it derives the same texts.
Whatever it derives is scanned without merging words and forms a sum; and every
sum that was scanned from a text can be derived again, part by part. So a
well-formed text is refused for its depth or for its operations at most, and no
other text has a value.
-/

import DeskCalculator.Proofs.Blame
import DeskCalculator.Proofs.Printing

namespace DeskCalculator

/-! ### Well-formed texts -/

/-- The texts of expressions. An expression may stand between blanks, so blanks may stand before
and after every word. -/
inductive WellFormed : List Char → Prop where
  | number {chars whole fraction : List Char}
      (layout : Numeral.IsLayout chars whole fraction) : WellFormed chars
  | constant (constant : Constant) : WellFormed constant.name.toList
  | negation {operand : List Char} (inner : WellFormed operand) : WellFormed ('-' :: operand)
  | call (function : UnaryFunction) {blanks argument : List Char}
      (blank : ∀ char ∈ blanks, isBlank char = true) (inner : WellFormed argument) :
      WellFormed (function.name.toList ++ (blanks ++ '(' :: (argument ++ [')'])))
  | group {chars : List Char} (inner : WellFormed chars) : WellFormed ('(' :: (chars ++ [')']))
  | joined (operator : Operator) {left right : List Char} (leftInner : WellFormed left)
      (rightInner : WellFormed right) : WellFormed (left ++ operator.symbol :: right)
  | blankBefore {char : Char} {chars : List Char} (blank : isBlank char = true)
      (inner : WellFormed chars) : WellFormed (char :: chars)
  | blankAfter {char : Char} {chars : List Char} (blank : isBlank char = true)
      (inner : WellFormed chars) : WellFormed (chars ++ [char])

theorem WellFormed.ne_nil {chars : List Char} (formed : WellFormed chars) : chars ≠ [] := by
  cases formed with
  | number layout =>
    obtain ⟨digit, more, same, _⟩ := layout.exists_head
    rw [same]
    exact List.cons_ne_nil digit more
  | constant constant => cases constant <;> exact List.cons_ne_nil _ _
  | call function blank inner =>
    exact List.append_ne_nil_of_right_ne_nil _ (List.append_ne_nil_of_right_ne_nil _
      (List.cons_ne_nil _ _))
  | joined operator leftInner rightInner =>
    exact List.append_ne_nil_of_right_ne_nil _ (List.cons_ne_nil _ _)
  | blankAfter blank inner => exact List.append_ne_nil_of_right_ne_nil _ (List.cons_ne_nil _ _)
  | _ => exact List.cons_ne_nil _ _

namespace Expr

/-! ### Phrases go on -/

theorem Phrase.forms_of_operand (phrase : Phrase) {tokens : List Token}
    (operand : Phrase.operand.Forms tokens) : phrase.Forms tokens := by
  obtain ⟨expr, nesting, derived⟩ := operand
  cases phrase with
  | sum => exact ⟨_, _, derived.sum_of_operand⟩
  | product => exact ⟨_, _, .factor derived.base⟩
  | power => exact ⟨_, _, derived.base⟩
  | operand => exact ⟨_, _, derived⟩

section Extension

variable {whole part : Phrase} {joins : Operator → Bool} (chain : IsChain whole part joins)
  {sign : Token} {operator : Operator} (kind : sign.kind = .operator operator)
  {back : List Token} (operand : Phrase.operand.Forms back)

include chain kind operand

/-- A chain of one part goes on with an operand: as one more part, or inside its part. -/
theorem IsChain.forms_extended_first {front : List Token} {expr : Expr} {nesting : Nat}
    (first : Derivation part front expr nesting)
    (inside : part.goesOn operator = true → part.Forms (front ++ sign :: back))
    (goesOn : whole.goesOn operator = true) : whole.Forms (front ++ sign :: back) := by
  cases joined : joins operator with
  | true =>
    obtain ⟨last, lastNesting, lastDerived⟩ := part.forms_of_operand operand
    exact ⟨_, _, chain.joined kind joined (chain.first first) lastDerived⟩
  | false =>
    rw [chain.goesOn, joined, Bool.false_or] at goesOn
    obtain ⟨grown, grownNesting, grownDerived⟩ := inside goesOn
    exact ⟨_, _, chain.first grownDerived⟩

/-- A chain of several parts goes on with an operand: as one more part, or inside its last one. -/
theorem IsChain.forms_extended_joined {link : Token} {linkOperator : Operator}
    {front last : List Token} {left right : Expr} {leftNesting rightNesting : Nat}
    (linkKind : link.kind = .operator linkOperator) (linkJoins : joins linkOperator = true)
    (leftDerived : Derivation whole front left leftNesting)
    (rightDerived : Derivation part last right rightNesting)
    (inside : part.goesOn operator = true → part.Forms (last ++ sign :: back))
    (goesOn : whole.goesOn operator = true) :
    whole.Forms ((front ++ link :: last) ++ sign :: back) := by
  have chained := chain.joined linkKind linkJoins leftDerived rightDerived
  cases joined : joins operator with
  | true =>
    obtain ⟨next, nextNesting, nextDerived⟩ := part.forms_of_operand operand
    exact ⟨_, _, chain.joined kind joined chained nextDerived⟩
  | false =>
    rw [chain.goesOn, joined, Bool.false_or] at goesOn
    obtain ⟨grown, grownNesting, grownDerived⟩ := inside goesOn
    rw [List.append_assoc, List.cons_append]
    exact ⟨_, _, chain.joined linkKind linkJoins leftDerived grownDerived⟩

end Extension

/-- A phrase of a kind that goes on with an operator goes on with it and one more operand. -/
theorem Derivation.forms_extended {phrase : Phrase} {front back : List Token} {expr : Expr}
    {nesting : Nat} {sign : Token} {operator : Operator}
    (derived : Derivation phrase front expr nesting) (kind : sign.kind = .operator operator)
    (operand : Phrase.operand.Forms back) (goesOn : phrase.goesOn operator = true) :
    phrase.Forms (front ++ sign :: back) := by
  induction derived with
  | base lower inductionHypothesis =>
    obtain rfl : operator = .raise := of_decide_eq_true goesOn
    obtain ⟨upper, upperNesting, upperDerived⟩ := Phrase.power.forms_of_operand operand
    exact ⟨_, _, .raised kind lower upperDerived⟩
  | raised raises lower _ _ inductionHypothesis =>
    obtain ⟨upper, upperNesting, grown⟩ := inductionHypothesis goesOn
    rw [List.append_assoc, List.cons_append]
    exact ⟨_, _, .raised raises lower grown⟩
  | factor power inductionHypothesis =>
    exact product_isChain.forms_extended_first kind operand power inductionHypothesis goesOn
  | times linkKind joins product power _ powerHypothesis =>
    exact product_isChain.forms_extended_joined kind operand linkKind joins product power
      powerHypothesis goesOn
  | term product inductionHypothesis =>
    exact sum_isChain.forms_extended_first kind operand product inductionHypothesis goesOn
  | plus linkKind joins sum product _ productHypothesis =>
    exact sum_isChain.forms_extended_joined kind operand linkKind joins sum product
      productHypothesis goesOn
  | _ => cases goesOn

theorem Phrase.Forms.joined_operand {front back : List Token} {sign : Token}
    {operator : Operator} (sum : Phrase.sum.Forms front) (kind : sign.kind = .operator operator)
    (operand : Phrase.operand.Forms back) : Phrase.sum.Forms (front ++ sign :: back) := by
  obtain ⟨_, _, derived⟩ := sum
  exact derived.forms_extended kind operand rfl

/-- A sum goes on with any operator and any phrase: it takes the operands of the phrase in, one
after the other. -/
theorem Phrase.Forms.joined {phrase : Phrase} {front back : List Token} {sign : Token}
    {operator : Operator} (sum : Phrase.sum.Forms front) (kind : sign.kind = .operator operator)
    (formed : phrase.Forms back) : Phrase.sum.Forms (front ++ sign :: back) := by
  obtain ⟨expr, nesting, derived⟩ := formed
  induction derived generalizing front sign operator with
  | number numberKind spelled => exact sum.joined_operand kind ⟨_, _, .number numberKind spelled⟩
  | constant constantKind => exact sum.joined_operand kind ⟨_, _, .constant constantKind⟩
  | negation minus inner _ => exact sum.joined_operand kind ⟨_, _, .negation minus inner⟩
  | group opens closes inner _ => exact sum.joined_operand kind ⟨_, _, .group opens closes inner⟩
  | call name opens closes inner _ =>
    exact sum.joined_operand kind ⟨_, _, .call name opens closes inner⟩
  | base _ inductionHypothesis => exact inductionHypothesis sum kind
  | factor _ inductionHypothesis => exact inductionHypothesis sum kind
  | term _ inductionHypothesis => exact inductionHypothesis sum kind
  | raised raises _ _ operandHypothesis powerHypothesis =>
    rw [← List.cons_append, ← List.append_assoc]
    exact powerHypothesis (operandHypothesis sum kind) raises
  | times linkKind _ _ _ productHypothesis powerHypothesis =>
    rw [← List.cons_append, ← List.append_assoc]
    exact powerHypothesis (productHypothesis sum kind) linkKind
  | plus linkKind _ _ _ sumHypothesis productHypothesis =>
    rw [← List.cons_append, ← List.append_assoc]
    exact productHypothesis (sumHypothesis sum kind) linkKind

/-- A minus sign in front of a phrase negates its first operand. -/
theorem Phrase.Forms.negated {phrase : Phrase} {tokens : List Token} {sign : Token}
    (minus : sign.kind = .operator .subtract) (formed : phrase.Forms tokens) :
    phrase.Forms (sign :: tokens) := by
  obtain ⟨expr, nesting, derived⟩ := formed
  have negated : ∀ {tokens : List Token} {expr : Expr} {nesting : Nat},
      Derivation .operand tokens expr nesting → Phrase.operand.Forms (sign :: tokens) :=
    fun operand => ⟨_, _, .negation minus operand⟩
  induction derived with
  | number numberKind spelled => exact negated (.number numberKind spelled)
  | constant constantKind => exact negated (.constant constantKind)
  | negation other inner _ => exact negated (.negation other inner)
  | group opens closes inner _ => exact negated (.group opens closes inner)
  | call name opens closes inner _ => exact negated (.call name opens closes inner)
  | base _ inductionHypothesis => exact Phrase.power.forms_of_operand inductionHypothesis
  | raised raises _ power operandHypothesis _ =>
    obtain ⟨_, _, operand⟩ := operandHypothesis
    exact ⟨_, _, .raised raises operand power⟩
  | factor _ inductionHypothesis =>
    obtain ⟨_, _, power⟩ := inductionHypothesis
    exact ⟨_, _, .factor power⟩
  | times linkKind joins _ power productHypothesis _ =>
    obtain ⟨_, _, product⟩ := productHypothesis
    exact ⟨_, _, .times linkKind joins product power⟩
  | term _ inductionHypothesis =>
    obtain ⟨_, _, product⟩ := inductionHypothesis
    exact ⟨_, _, .term product⟩
  | plus linkKind joins _ product sumHypothesis _ =>
    obtain ⟨_, _, sum⟩ := sumHypothesis
    exact ⟨_, _, .plus linkKind joins sum product⟩

/-- A phrase nests no more levels than it has words: each level is opened by a word of its own.
An operand leaves one of its words to the power that it will stand in. -/
theorem Derivation.nesting_le_length {phrase : Phrase} {tokens : List Token} {expr : Expr}
    {nesting : Nat} (derived : Derivation phrase tokens expr nesting) :
    nesting ≤ tokens.length ∧ (phrase = .operand → nesting < tokens.length) := by
  induction derived with
  | number => simp
  | constant => simp
  | negation _ _ inductionHypothesis =>
    have bound := inductionHypothesis.2 rfl
    rw [List.length_cons]
    omega
  | group _ _ _ inductionHypothesis =>
    simp only [List.length_cons, List.length_append]
    omega
  | call _ _ _ _ inductionHypothesis =>
    simp only [List.length_cons, List.length_append]
    omega
  | base _ inductionHypothesis => exact ⟨inductionHypothesis.2 rfl, nofun⟩
  | raised _ _ _ operandHypothesis powerHypothesis =>
    have bound := operandHypothesis.2 rfl
    rw [List.length_append, List.length_cons]
    exact ⟨by omega, nofun⟩
  | factor _ inductionHypothesis => exact ⟨inductionHypothesis.1, nofun⟩
  | times _ _ _ _ productHypothesis powerHypothesis =>
    rw [List.length_append, List.length_cons]
    exact ⟨by omega, nofun⟩
  | term _ inductionHypothesis => exact ⟨inductionHypothesis.1, nofun⟩
  | plus _ _ _ _ sumHypothesis productHypothesis =>
    rw [List.length_append, List.length_cons]
    exact ⟨by omega, nofun⟩

/-! ### Well-formed texts are scanned as sums -/

/-- The characters that can make a word longer. -/
def isWordChar (char : Char) : Bool :=
  Lexeme.isNumeralChar char || char.isUpper || char.isLower

theorem isBlank_of_isWordChar {char : Char} (wordChar : isWordChar char = true) :
    isBlank char = false := by
  have visible : ∀ {first last : Nat}, 0x21 ≤ first → last ≤ 0x7E →
      first ≤ char.toNat ∧ char.toNat ≤ last → isBlank char = false := fun low high bounds =>
    isBlank_of_visible (Nat.le_trans low bounds.1) (Nat.le_trans bounds.2 high)
  rw [isWordChar, Lexeme.isNumeralChar, Bool.or_eq_true, Bool.or_eq_true, Bool.or_eq_true]
    at wordChar
  rcases wordChar with ((digit | point) | upper) | lower
  · exact visible (by decide) (by decide) (Char.isDigit_iff_toNat.mp digit)
  · rw [beq_iff_eq.mp point]
    rfl
  · exact visible (by decide) (by decide) (isUpper_bounds upper)
  · exact visible (by decide) (by decide) (isLower_bounds lower)

theorem isWordChar_of_isBlank {char : Char} (blank : isBlank char = true) :
    isWordChar char = false := by
  rw [Bool.eq_false_iff]
  intro wordChar
  rw [isBlank_of_isWordChar wordChar] at blank
  cases blank

theorem isWordChar_symbol (operator : Operator) : isWordChar operator.symbol = false := by
  cases operator <;> rfl

theorem ScansAs.of_goesOn {goesOn lastGoesOn : Char → Bool} {chars : List Char} {position : Nat}
    {words : List Token} (scans : ScansAs goesOn chars position words)
    (weaker : ∀ char, goesOn char = true → lastGoesOn char = true) :
    ScansAs lastGoesOn chars position words := by
  intro remaining found ended
  refine scans remaining found fun next head => Bool.eq_false_iff.mpr fun member => ?_
  exact absurd (weaker next member) (Bool.eq_false_iff.mp (ended next head))

theorem scansAs_word_of_spells {kind : TokenKind} {text : List Char} (spelled : kind.Spells text)
    (position : Nat) :
    ScansAs isWordChar text position [⟨kind, String.ofList text, position⟩] := by
  refine (scansAs_word spelled position).of_goesOn fun char member => ?_
  cases kind <;> simp_all [TokenKind.goesOn, isWordChar]

theorem ScansAs.after_blanks {goesOn : Char → Bool} {blanks back : List Char} {position : Nat}
    {words : List Token} (blank : ∀ char ∈ blanks, isBlank char = true)
    (scans : ScansAs goesOn back (position + blanks.length) words) :
    ScansAs goesOn (blanks ++ back) position words := by
  induction blanks generalizing position with
  | nil => exact scans
  | cons char blanks inductionHypothesis =>
    obtain ⟨charBlank, blank⟩ := List.forall_mem_cons.mp blank
    rw [List.length_cons, Nat.add_comm blanks.length, ← Nat.add_assoc] at scans
    exact (inductionHypothesis blank scans).after_blank charBlank

theorem ScansAs.before_blank {goesOn : Char → Bool} {char : Char} {front : List Char}
    {position : Nat} {words : List Token} (scans : ScansAs isWordChar front position words)
    (blank : isBlank char = true) : ScansAs goesOn (front ++ [char]) position words := by
  have nothing : ScansAs goesOn ([char] ++ []) (position + front.length) [] :=
    ScansAs.after_blank blank fun _ _ _ => rfl
  have joined := scans.append nothing (List.cons_ne_nil _ _) fun next head => by
    cases head
    exact isWordChar_of_isBlank blank
  rwa [List.append_nil, List.append_nil] at joined

theorem ScansAs.grouped {chars : List Char} {position : Nat} {words : List Token}
    (scans : ScansAs isWordChar chars (position + 1) words) :
    ScansAs isWordChar (['('] ++ (chars ++ [')'])) position
      (⟨.opening, "(", position⟩ :: (words ++ [⟨.closing, ")", position + 1 + chars.length⟩])) := by
  have opens : TokenKind.opening.Spells ['('] := rfl
  exact (scans.closed rfl isWordChar).after_sign opens rfl (by simp)

theorem ScansAs.joined {front back : List Char} {position : Nat} {frontWords backWords : List Token}
    (frontScans : ScansAs isWordChar front position frontWords) (operator : Operator)
    (backScans : ScansAs isWordChar back (position + front.length + 1) backWords)
    (nonempty : back ≠ []) :
    ScansAs isWordChar (front ++ ([operator.symbol] ++ back)) position
      (frontWords ++
        ⟨.operator operator, String.ofList [operator.symbol], position + front.length⟩ ::
          backWords) := by
  have spelled : (TokenKind.operator operator).Spells [operator.symbol] := rfl
  refine frontScans.append (backScans.after_sign spelled rfl nonempty) (by simp) fun next head => ?_
  cases head
  exact isWordChar_symbol operator

/-- The lexer finds in a well-formed text, before anything that makes no word longer, the words
of a sum. -/
theorem exists_scansAs_of_wellFormed {chars : List Char} (formed : WellFormed chars)
    (position : Nat) :
    ∃ words, ScansAs isWordChar chars position words ∧ Phrase.sum.Forms words := by
  induction formed generalizing position with
  | @number chars whole fraction layout =>
    obtain ⟨digit, more, same, isDigit, numeral⟩ := layout.exists_head
    have spelled : TokenKind.number.Spells chars := ⟨digit, more, same, isDigit, numeral⟩
    exact ⟨_, scansAs_word_of_spells spelled position,
      Phrase.sum.forms_of_operand ⟨_, _, .number rfl layout.read?⟩⟩
  | constant constant =>
    have spelled : (TokenKind.constant constant).Spells constant.name.toList := rfl
    exact ⟨_, scansAs_word_of_spells spelled position,
      Phrase.sum.forms_of_operand ⟨_, _, .constant rfl⟩⟩
  | negation inner inductionHypothesis =>
    obtain ⟨words, scans, sum⟩ := inductionHypothesis (position + 1)
    have minus : (TokenKind.operator .subtract).Spells ['-'] := rfl
    exact ⟨_, scans.after_sign minus rfl inner.ne_nil, sum.negated rfl⟩
  | @call function blanks argument blank inner inductionHypothesis =>
    obtain ⟨words, scans, expr, nesting, sum⟩ :=
      inductionHypothesis (position + function.name.toList.length + blanks.length + 1)
    have spelled : (TokenKind.function function).Spells function.name.toList := rfl
    have apart : ∀ next ∈ (blanks ++ ('(' :: (argument ++ [')']))).head?,
        isWordChar next = false := by
      intro next head
      cases blanks with
      | nil =>
        cases head
        rfl
      | cons char blanks =>
        cases head
        exact isWordChar_of_isBlank (blank next (.head _))
    have called := (scansAs_word_of_spells spelled position).append
      (ScansAs.after_blanks blank scans.grouped)
      (List.append_ne_nil_of_right_ne_nil _ (List.cons_ne_nil _ _)) apart
    exact ⟨_, called, Phrase.sum.forms_of_operand ⟨_, _, .call rfl rfl rfl sum⟩⟩
  | group inner inductionHypothesis =>
    obtain ⟨words, scans, expr, nesting, sum⟩ := inductionHypothesis (position + 1)
    exact ⟨_, scans.grouped, Phrase.sum.forms_of_operand ⟨_, _, .group rfl rfl sum⟩⟩
  | @joined operator left right leftInner rightInner leftHypothesis rightHypothesis =>
    obtain ⟨front, frontScans, frontSum⟩ := leftHypothesis position
    obtain ⟨back, backScans, backSum⟩ := rightHypothesis (position + left.length + 1)
    exact ⟨_, frontScans.joined operator backScans rightInner.ne_nil, frontSum.joined rfl backSum⟩
  | blankBefore blank inner inductionHypothesis =>
    obtain ⟨words, scans, sum⟩ := inductionHypothesis (position + 1)
    exact ⟨words, scans.after_blank blank, sum⟩
  | blankAfter blank inner inductionHypothesis =>
    obtain ⟨words, scans, sum⟩ := inductionHypothesis position
    exact ⟨words, scans.before_blank blank, sum⟩

/-! ### Scanned sums are well-formed -/

/-- The words stand in the characters in order and letter for letter, with blanks before, between
and after them. -/
inductive Laid : List Token → List Char → Prop where
  | nil : Laid [] []
  | blank {char : Char} {words : List Token} {chars : List Char} (blank : isBlank char = true)
      (laid : Laid words chars) : Laid words (char :: chars)
  | word {kind : TokenKind} {text : List Char} {position : Nat} {words : List Token}
      {chars : List Char} (spelled : kind.Spells text) (laid : Laid words chars) :
      Laid (⟨kind, String.ofList text, position⟩ :: words) (text ++ chars)

/-- What the lexer returns stands in the text. -/
theorem exists_laid_of_scan {chars : List Char} {position : Nat} {found tokens : List Token}
    (scanned : Token.scan chars position 0 found = .ok tokens) :
    ∃ words place, tokens = found.reverse ++ words ++ [Token.stop place] ∧ Laid words chars := by
  obtain ⟨words, same, laid⟩ := Token.exists_words_of_scan Laid.nil Laid.blank
    (fun spelled _ laid => .word spelled laid) scanned
  exact ⟨words, _, same, laid⟩

theorem Laid.blank_of_nil {chars : List Char} (laid : Laid [] chars) :
    ∀ char ∈ chars, isBlank char = true := by
  generalize empty : ([] : List Token) = words at laid
  induction laid with
  | nil => exact List.forall_mem_nil _
  | blank blank _ inductionHypothesis =>
    exact List.forall_mem_cons.mpr ⟨blank, inductionHypothesis empty⟩
  | word _ _ _ => cases empty

theorem Laid.exists_of_cons {token : Token} {words : List Token} {chars : List Char}
    (laid : Laid (token :: words) chars) :
    ∃ blanks text rest, chars = blanks ++ (text ++ rest) ∧
      (∀ char ∈ blanks, isBlank char = true) ∧ token.kind.Spells text ∧
      token.text = String.ofList text ∧ Laid words rest := by
  generalize whole : token :: words = all at laid
  induction laid with
  | nil => cases whole
  | @blank char _ _ blank _ inductionHypothesis =>
    obtain ⟨blanks, text, rest, rfl, blanksBlank, spelled, same, laid⟩ := inductionHypothesis whole
    exact ⟨char :: blanks, text, rest, rfl, List.forall_mem_cons.mpr ⟨blank, blanksBlank⟩,
      spelled, same, laid⟩
  | word spelled laid _ =>
    cases whole
    exact ⟨[], _, _, rfl, List.forall_mem_nil _, spelled, rfl, laid⟩

theorem Laid.exists_of_append {front back : List Token} {chars : List Char}
    (laid : Laid (front ++ back) chars) :
    ∃ frontChars backChars, chars = frontChars ++ backChars ∧ Laid front frontChars ∧
      Laid back backChars := by
  generalize whole : front ++ back = all at laid
  induction laid generalizing front with
  | nil =>
    obtain ⟨rfl, rfl⟩ := List.append_eq_nil_iff.mp whole
    exact ⟨[], [], rfl, .nil, .nil⟩
  | @blank char _ _ blank _ inductionHypothesis =>
    obtain ⟨frontChars, backChars, rfl, frontLaid, backLaid⟩ := inductionHypothesis whole
    exact ⟨char :: frontChars, backChars, rfl, .blank blank frontLaid, backLaid⟩
  | @word kind text position words chars spelled laid inductionHypothesis =>
    cases front with
    | nil =>
      obtain rfl : back = _ := whole
      exact ⟨[], text ++ chars, rfl, .nil, .word spelled laid⟩
    | cons token front =>
      obtain ⟨rfl, rest⟩ := List.cons.inj whole
      obtain ⟨frontChars, backChars, rfl, frontLaid, backLaid⟩ := inductionHypothesis rest
      exact ⟨text ++ frontChars, backChars, by rw [List.append_assoc], .word spelled frontLaid,
        backLaid⟩

end Expr

theorem WellFormed.after_blanks {blanks chars : List Char} (formed : WellFormed chars)
    (blank : ∀ char ∈ blanks, isBlank char = true) : WellFormed (blanks ++ chars) := by
  induction blanks with
  | nil => exact formed
  | cons char blanks inductionHypothesis =>
    obtain ⟨charBlank, blank⟩ := List.forall_mem_cons.mp blank
    exact .blankBefore charBlank (inductionHypothesis blank)

theorem WellFormed.before_blanks {blanks chars : List Char} (formed : WellFormed chars)
    (blank : ∀ char ∈ blanks, isBlank char = true) : WellFormed (chars ++ blanks) := by
  induction blanks generalizing chars with
  | nil => rwa [List.append_nil]
  | cons char blanks inductionHypothesis =>
    obtain ⟨charBlank, blank⟩ := List.forall_mem_cons.mp blank
    rw [List.append_cons]
    exact inductionHypothesis (.blankAfter charBlank formed) blank

namespace Expr

/-- A word between blanks is a well-formed text if the word is. -/
theorem Laid.wellFormed_of_singleton {token : Token} {chars : List Char}
    (laid : Laid [token] chars)
    (formed : ∀ text, token.kind.Spells text → token.text = String.ofList text →
      WellFormed text) : WellFormed chars := by
  obtain ⟨blanks, text, rest, rfl, blank, spelled, same, restLaid⟩ := laid.exists_of_cons
  exact ((formed text spelled same).before_blanks restLaid.blank_of_nil).after_blanks blank

theorem Laid.wellFormed_of_joined {front back : List Token} {sign : Token} {operator : Operator}
    {chars : List Char} (laid : Laid (front ++ sign :: back) chars)
    (kind : sign.kind = .operator operator)
    (frontFormed : ∀ {chars : List Char}, Laid front chars → WellFormed chars)
    (backFormed : ∀ {chars : List Char}, Laid back chars → WellFormed chars) :
    WellFormed chars := by
  obtain ⟨left, _, rfl, leftLaid, signedLaid⟩ := laid.exists_of_append
  obtain ⟨blanks, text, right, rfl, blank, spelled, _, rightLaid⟩ := signedLaid.exists_of_cons
  rw [kind] at spelled
  obtain rfl : text = [operator.symbol] := spelled
  rw [← List.append_assoc, List.singleton_append]
  exact .joined operator ((frontFormed leftLaid).before_blanks blank) (backFormed rightLaid)

/-- What stands between parentheses, with the blanks outside and the parentheses taken off. -/
theorem Laid.exists_of_enclosed {opening closing : Token} {tokens : List Token}
    {chars : List Char} (laid : Laid (opening :: (tokens ++ [closing])) chars)
    (opens : opening.kind = .opening) (closes : closing.kind = .closing)
    (inner : ∀ {chars : List Char}, Laid tokens chars → WellFormed chars) :
    ∃ before argument behind, chars = before ++ ('(' :: (argument ++ [')']) ++ behind) ∧
      (∀ char ∈ before, isBlank char = true) ∧ (∀ char ∈ behind, isBlank char = true) ∧
      WellFormed argument := by
  obtain ⟨before, text, _, rfl, beforeBlank, spelled, _, openedLaid⟩ := laid.exists_of_cons
  rw [opens] at spelled
  obtain rfl : text = ['('] := spelled
  obtain ⟨argument, _, rfl, argumentLaid, closedLaid⟩ := openedLaid.exists_of_append
  obtain ⟨blanks, text, behind, rfl, blank, spelled, _, behindLaid⟩ := closedLaid.exists_of_cons
  rw [closes] at spelled
  obtain rfl : text = [')'] := spelled
  refine ⟨before, argument ++ blanks, behind, by simp, beforeBlank, behindLaid.blank_of_nil, ?_⟩
  exact (inner argumentLaid).before_blanks blank

/-- Characters in which the words of a phrase are laid out are a well-formed text. -/
theorem Derivation.wellFormed {phrase : Phrase} {tokens : List Token} {expr : Expr}
    {nesting : Nat} (derived : Derivation phrase tokens expr nesting) {chars : List Char}
    (laid : Laid tokens chars) : WellFormed chars := by
  induction derived generalizing chars with
  | @number token value kind read =>
    refine laid.wellFormed_of_singleton fun text spelled same => ?_
    rw [kind] at spelled
    obtain ⟨digit, more, rfl, isDigit, numeral⟩ := spelled
    have readable : Numeral.read? (String.ofList (digit :: more)) ≠ none := by
      rw [← same, read]
      exact Option.some_ne_none value
    obtain ⟨whole, fraction, layout⟩ :=
      Numeral.exists_isLayout_of_read? isDigit numeral readable
    exact .number layout
  | @constant token constant kind =>
    refine laid.wellFormed_of_singleton fun text spelled _ => ?_
    rw [kind] at spelled
    obtain rfl : text = constant.name.toList := spelled
    exact .constant constant
  | negation minus _ inductionHypothesis =>
    obtain ⟨blanks, text, rest, rfl, blank, spelled, _, restLaid⟩ := laid.exists_of_cons
    rw [minus] at spelled
    obtain rfl : text = ['-'] := spelled
    exact (WellFormed.negation (inductionHypothesis restLaid)).after_blanks blank
  | group opens closes _ inductionHypothesis =>
    obtain ⟨before, argument, behind, rfl, beforeBlank, behindBlank, formed⟩ :=
      laid.exists_of_enclosed opens closes inductionHypothesis
    exact ((WellFormed.group formed).before_blanks behindBlank).after_blanks beforeBlank
  | @call name opening closing function tokens argument nesting kind opens closes _
      inductionHypothesis =>
    obtain ⟨blanks, text, _, rfl, blank, spelled, _, restLaid⟩ := laid.exists_of_cons
    rw [kind] at spelled
    obtain rfl : text = function.name.toList := spelled
    obtain ⟨before, inside, behind, rfl, beforeBlank, behindBlank, formed⟩ :=
      restLaid.exists_of_enclosed opens closes inductionHypothesis
    rw [← List.append_assoc before, ← List.append_assoc function.name.toList]
    exact ((WellFormed.call function beforeBlank formed).before_blanks behindBlank).after_blanks
      blank
  | base _ inductionHypothesis => exact inductionHypothesis laid
  | raised raises _ _ operandHypothesis powerHypothesis =>
    exact laid.wellFormed_of_joined raises operandHypothesis powerHypothesis
  | factor _ inductionHypothesis => exact inductionHypothesis laid
  | times kind _ _ _ productHypothesis powerHypothesis =>
    exact laid.wellFormed_of_joined kind productHypothesis powerHypothesis
  | term _ inductionHypothesis => exact inductionHypothesis laid
  | plus kind _ _ _ sumHypothesis productHypothesis =>
    exact laid.wellFormed_of_joined kind sumHypothesis productHypothesis

theorem Laid.length_le {words : List Token} {chars : List Char} (laid : Laid words chars) :
    words.length ≤ chars.length := by
  induction laid with
  | nil => exact Nat.le_refl 0
  | blank _ _ inductionHypothesis => exact Nat.le_succ_of_le inductionHypothesis
  | word spelled _ inductionHypothesis =>
    rw [List.length_cons, List.length_append, Nat.add_comm]
    exact Nat.add_le_add (List.length_pos_iff.mpr spelled.ne_nil) inductionHypothesis

theorem Laid.isStop_eq_false {words : List Token} {chars : List Char} (laid : Laid words chars) :
    ∀ word ∈ words, word.isStop = false := by
  induction laid with
  | nil => exact List.forall_mem_nil _
  | blank _ _ inductionHypothesis => exact inductionHypothesis
  | @word kind text position _ _ spelled _ inductionHypothesis =>
    refine List.forall_mem_cons.mpr ⟨?_, inductionHypothesis⟩
    cases kind with
    | stop => cases spelled
    | _ => rfl

end Expr

namespace Engine

open DeskCalculator.Expr

/-! ### Values of texts -/

theorem value_cases (mode : AngleMode) (expr : Expr) :
    (∃ found, value mode expr = .ok found) ∨ ∃ cause, value mode expr = .error (.math cause) := by
  unfold value
  cases expr.evaluate mode with
  | ok found => exact .inl ⟨found, rfl⟩
  | error cause => exact .inr ⟨cause, rfl⟩

theorem clampLimit_limit (engine : Engine) : clampLimit engine.limit = engine.limit := by
  have bounds := engine.limit_bounds
  unfold clampLimit
  omega

/-- A sum of words is read as a tree, or refused for its depth if it has more words than levels
may be opened. -/
theorem tree_of_forms (engine : Engine) {words : List Token} (sum : Phrase.sum.Forms words)
    (place : Nat) :
    (∃ expr, engine.tree (words ++ [Token.stop place]) = .ok expr) ∨
    engine.limit < words.length ∧ ∃ position,
      engine.tree (words ++ [Token.stop place]) = .error (.tooDeep engine.limit position) := by
  obtain ⟨expr, nesting, derived⟩ := sum
  unfold tree
  rw [ofTokens_append_stop (fun word member => (derived.word_fits word member).1) rfl,
    clampLimit_limit]
  rcases Nat.lt_or_ge engine.limit nesting with deep | fits
  · exact .inr ⟨Nat.lt_of_lt_of_le deep derived.nesting_le_length.1, ofBody_of_lt derived deep _⟩
  · exact .inl ⟨expr, ofBody_eq_ok_iff.mpr ⟨nesting, derived, fits⟩⟩

/-- The tokens of a text that are read as a tree are laid out in the text as a sum. -/
theorem wellFormed_of_tree (engine : Engine) {text : String} {found : List Token} {expr : Expr}
    (lexed : engine.tokens text = .ok found) (read : engine.tree found = .ok expr) :
    WellFormed text.toList := by
  obtain ⟨words, place, rfl, laid⟩ := exists_laid_of_scan lexed
  rw [List.reverse_nil, List.nil_append, tree,
    ofTokens_append_stop laid.isStop_eq_false rfl] at read
  obtain ⟨nesting, derived, _⟩ := ofBody_eq_ok_iff.mp read
  exact derived.wellFormed laid

theorem tokens_ne_math (engine : Engine) (text : String) (cause : MathFault) :
    engine.tokens text ≠ .error (.math cause) := by
  intro refused
  have lexing := Token.lex_isLexing text
  rw [show Token.lex text = .error (.math cause) from refused] at lexing
  obtain ⟨_, _, _, _, same, _⟩ := lexing
  cases same

theorem tree_ne_math (engine : Engine) {text : String} {found : List Token}
    (lexed : engine.tokens text = .ok found) (cause : MathFault) :
    engine.tree found ≠ .error (.math cause) := by
  intro refused
  obtain ⟨words, place, rfl, laid⟩ := exists_laid_of_scan lexed
  rw [List.reverse_nil, List.nil_append] at refused
  obtain ⟨_, _, _, obstacle, _, _, same, _⟩ := exists_refusal laid.isStop_eq_false rfl refused
  cases obstacle <;> cases same

/-- A text that has a value, or a fault of one of its operations, was read as a tree. -/
theorem exists_tree (engine : Engine) {text : String} {mode : AngleMode}
    (accepted : (∃ found, engine.evaluate text mode = .ok found) ∨
      ∃ cause, engine.evaluate text mode = .error (.math cause)) :
    ∃ found expr, engine.tokens text = .ok found ∧ engine.tree found = .ok expr := by
  have notRefused : ∀ fault, (∀ cause, fault ≠ .math cause) →
      engine.evaluate text mode ≠ .error fault := by
    intro fault notMath refused
    rw [refused] at accepted
    obtain ⟨_, same⟩ | ⟨cause, same⟩ := accepted
    · cases same
    · exact notMath cause (Except.error.inj same)
  cases lexed : engine.tokens text with
  | error fault =>
    refine absurd ?_ (notRefused fault fun cause same => ?_)
    · rw [evaluate, lexed]
    · exact engine.tokens_ne_math text cause (same ▸ lexed)
  | ok found =>
    cases read : engine.tree found with
    | error fault =>
      refine absurd ?_ (notRefused fault fun cause same => ?_)
      · simp only [evaluate, lexed, read]
      · exact engine.tree_ne_math lexed cause (same ▸ read)
    | ok expr => exact ⟨found, expr, rfl, read⟩

/-- A well-formed text has a value, or it is refused for one of its operations, or it has more
characters than levels may be opened and is refused for its depth. -/
theorem evaluate_of_wellFormed (engine : Engine) {text : String} (mode : AngleMode)
    (formed : WellFormed text.toList) :
    (∃ found, engine.evaluate text mode = .ok found) ∨
    (∃ cause, engine.evaluate text mode = .error (.math cause)) ∨
    engine.limit < text.length ∧
      ∃ position, engine.evaluate text mode = .error (.tooDeep engine.limit position) := by
  obtain ⟨words, scans, sum⟩ := exists_scansAs_of_wellFormed formed 0
  have lexed : engine.tokens text = _ := scans.lex
  have short : words.length ≤ text.length := by
    obtain ⟨laidWords, place, same, laid⟩ := exists_laid_of_scan lexed
    rw [List.reverse_nil, List.nil_append] at same
    rw [(List.append_inj' same rfl).1, ← String.length_toList]
    exact laid.length_le
  unfold evaluate
  rw [lexed]
  dsimp only
  obtain ⟨expr, read⟩ | ⟨long, position, refused⟩ :=
    engine.tree_of_forms sum (0 + text.toList.length)
  · rw [read]
    exact (value_cases mode expr).imp_right .inl
  · rw [refused]
    exact .inr (.inr ⟨Nat.lt_of_lt_of_le long short, position, rfl⟩)

/-- A well-formed text has a value, or it is refused for one of its operations or for its depth;
for its depth only if it has more characters than levels may be opened. And only a well-formed
text has a value or is refused for one of its operations. -/
theorem evaluate_wellFormed (engine : Engine) (text : String) (mode : AngleMode) :
    (WellFormed text.toList →
      (∃ found, engine.evaluate text mode = .ok found) ∨
      (∃ cause, engine.evaluate text mode = .error (.math cause)) ∨
      engine.limit < text.length ∧
        ∃ position, engine.evaluate text mode = .error (.tooDeep engine.limit position)) ∧
    ((∃ found, engine.evaluate text mode = .ok found) ∨
      (∃ cause, engine.evaluate text mode = .error (.math cause)) →
      WellFormed text.toList) := by
  refine ⟨engine.evaluate_of_wellFormed mode, fun accepted => ?_⟩
  obtain ⟨found, expr, lexed, read⟩ := engine.exists_tree accepted
  exact engine.wellFormed_of_tree lexed read

/-- The text `2^ -sin(PI)` is well-formed and has eleven characters, so an engine of sixteen
levels finds a value for it or a fault of one of its operations. -/
theorem evaluate_wellFormed_negatedExponent :
    WellFormed "2^ -sin(PI)".toList ∧
      ((∃ found, (Engine.ofLimit 16).evaluate "2^ -sin(PI)" .degrees = .ok found) ∨
        ∃ cause, (Engine.ofLimit 16).evaluate "2^ -sin(PI)" .degrees = .error (.math cause)) := by
  have two : WellFormed ['2'] :=
    .number ⟨List.cons_ne_nil _ _, by simp, by simp, .inl ⟨rfl, rfl⟩⟩
  have sine : WellFormed (UnaryFunction.sin.name.toList ++ ([] ++ '(' ::
      (Constant.pi.name.toList ++ [')']))) := .call .sin (by simp) (.constant .pi)
  have formed : WellFormed "2^ -sin(PI)".toList :=
    .joined .raise two (.blankBefore rfl (.negation sine))
  refine ⟨formed, ?_⟩
  obtain value | fault | ⟨long, _⟩ :=
    ((Engine.ofLimit 16).evaluate_wellFormed "2^ -sin(PI)" .degrees).1 formed
  · exact .inl value
  · exact .inr fault
  · exact absurd long (by decide)

end Engine

end DeskCalculator
