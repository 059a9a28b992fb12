/-
This file states the grammar of expressions, apart from how expressions are
read. A sum is a chain of products, a product a chain of powers, and a power an
operand with an optional exponent that is itself a power. A derivation says
which tokens form a phrase, which tree the phrase stands for, and how many
levels it nests: a power and a negation open one level each, and everything
else nests as deeply as its deepest part.
-/

import DeskCalculator.Expr.OfTokens

namespace DeskCalculator.Expr

/-! ### Phrases -/

/-- The kinds of phrases, from the loosest to the tightest. -/
inductive Phrase where
  | sum
  | product
  | power
  | operand
  deriving DecidableEq

/-- The operators with which a phrase of this kind goes on. -/
def Phrase.goesOn : Phrase → Operator → Bool
  | sum, _ => true
  | product, operator => isProductOperator operator || operator = .raise
  | power, operator => operator = .raise
  | operand, _ => false

/-- The kind of the last part of a phrase, which must have ended before the phrase can go on. -/
def Phrase.last : Phrase → Phrase
  | sum => product
  | product => power
  | power => power
  | operand => operand

/-- `Derivation phrase tokens expr nesting` says that the tokens form a phrase of this kind,
which stands for this tree and nests this many levels. Chains grow on their right end, so their
trees lean to the left. -/
inductive Derivation : Phrase → List Token → Expr → Nat → Prop where
  | number {token : Token} {value : Float} (kind : token.kind = .number)
      (spelled : Numeral.read? token.text = some value) :
      Derivation .operand [token] (.number value) 0
  | constant {token : Token} {constant : Constant} (kind : token.kind = .constant constant) :
      Derivation .operand [token] (.number constant.value) 0
  | negation {sign : Token} {tokens : List Token} {expr : Expr} {nesting : Nat}
      (minus : sign.kind = .operator .subtract)
      (operand : Derivation .operand tokens expr nesting) :
      Derivation .operand (sign :: tokens) expr.negate (nesting + 1)
  | group {opening closing : Token} {tokens : List Token} {expr : Expr} {nesting : Nat}
      (opens : opening.kind = .opening) (closes : closing.kind = .closing)
      (inner : Derivation .sum tokens expr nesting) :
      Derivation .operand (opening :: (tokens ++ [closing])) expr nesting
  | call {name opening closing : Token} {function : UnaryFunction} {tokens : List Token}
      {argument : Expr} {nesting : Nat} (kind : name.kind = .function function)
      (opens : opening.kind = .opening) (closes : closing.kind = .closing)
      (inner : Derivation .sum tokens argument nesting) :
      Derivation .operand (name :: opening :: (tokens ++ [closing])) (.call function argument)
        nesting
  | base {tokens : List Token} {expr : Expr} {nesting : Nat}
      (operand : Derivation .operand tokens expr nesting) :
      Derivation .power tokens expr (nesting + 1)
  | raised {sign : Token} {lower upper : List Token} {base exponent : Expr}
      {baseNesting exponentNesting : Nat} (raises : sign.kind = .operator .raise)
      (operand : Derivation .operand lower base baseNesting)
      (power : Derivation .power upper exponent exponentNesting) :
      Derivation .power (lower ++ sign :: upper) (.binary .raise base exponent)
        (max baseNesting exponentNesting + 1)
  | factor {tokens : List Token} {expr : Expr} {nesting : Nat}
      (power : Derivation .power tokens expr nesting) : Derivation .product tokens expr nesting
  | times {sign : Token} {operator : Operator} {front back : List Token} {left right : Expr}
      {leftNesting rightNesting : Nat} (kind : sign.kind = .operator operator)
      (joins : isProductOperator operator = true)
      (product : Derivation .product front left leftNesting)
      (power : Derivation .power back right rightNesting) :
      Derivation .product (front ++ sign :: back) (.binary operator left right)
        (max leftNesting rightNesting)
  | term {tokens : List Token} {expr : Expr} {nesting : Nat}
      (product : Derivation .product tokens expr nesting) : Derivation .sum tokens expr nesting
  | plus {sign : Token} {operator : Operator} {front back : List Token} {left right : Expr}
      {leftNesting rightNesting : Nat} (kind : sign.kind = .operator operator)
      (joins : isSumOperator operator = true)
      (sum : Derivation .sum front left leftNesting)
      (product : Derivation .product back right rightNesting) :
      Derivation .sum (front ++ sign :: back) (.binary operator left right)
        (max leftNesting rightNesting)

/-- The words of a phrase are no ends of the input, and its numbers are spelled as numbers. -/
theorem Derivation.word_fits {phrase : Phrase} {tokens : List Token} {expr : Expr}
    {nesting : Nat} (derived : Derivation phrase tokens expr nesting) :
    ∀ token ∈ tokens, token.isStop = false ∧
      (token.kind = .number → Numeral.read? token.text ≠ none) := by
  have of_kind : ∀ {token : Token} {kind : TokenKind}, token.kind = kind → kind ≠ .stop →
      kind ≠ .number → token.isStop = false ∧
        (token.kind = .number → Numeral.read? token.text ≠ none) := by
    intro token kind same notStop notNumber
    refine ⟨?_, fun number => absurd (same.symm.trans number) notNumber⟩
    rw [Token.isStop, same]
    exact decide_eq_false notStop
  induction derived with
  | @number token value kind spelled =>
    intro other member
    rw [List.mem_singleton.mp member]
    refine ⟨?_, fun _ => ?_⟩
    · rw [Token.isStop, kind]
      rfl
    · rw [spelled]
      exact Option.some_ne_none value
  | constant kind =>
    intro other member
    rw [List.mem_singleton.mp member]
    exact of_kind kind (by simp) (by simp)
  | negation minus _ inductionHypothesis =>
    refine List.forall_mem_cons.mpr ⟨of_kind minus (by simp) (by simp), inductionHypothesis⟩
  | group opens closes _ inductionHypothesis =>
    refine List.forall_mem_cons.mpr ⟨of_kind opens (by simp) (by simp),
      List.forall_mem_append.mpr ⟨inductionHypothesis, ?_⟩⟩
    exact List.forall_mem_singleton.mpr (of_kind closes (by simp) (by simp))
  | call kind opens closes _ inductionHypothesis =>
    refine List.forall_mem_cons.mpr ⟨of_kind kind (by simp) (by simp),
      List.forall_mem_cons.mpr ⟨of_kind opens (by simp) (by simp),
        List.forall_mem_append.mpr ⟨inductionHypothesis, ?_⟩⟩⟩
    exact List.forall_mem_singleton.mpr (of_kind closes (by simp) (by simp))
  | base _ inductionHypothesis => exact inductionHypothesis
  | raised raises _ _ operandHypothesis powerHypothesis =>
    exact List.forall_mem_append.mpr ⟨operandHypothesis,
      List.forall_mem_cons.mpr ⟨of_kind raises (by simp) (by simp), powerHypothesis⟩⟩
  | factor _ inductionHypothesis => exact inductionHypothesis
  | times kind _ _ _ productHypothesis powerHypothesis =>
    exact List.forall_mem_append.mpr ⟨productHypothesis,
      List.forall_mem_cons.mpr ⟨of_kind kind (by simp) (by simp), powerHypothesis⟩⟩
  | term _ inductionHypothesis => exact inductionHypothesis
  | plus kind _ _ _ sumHypothesis productHypothesis =>
    exact List.forall_mem_append.mpr ⟨sumHypothesis,
      List.forall_mem_cons.mpr ⟨of_kind kind (by simp) (by simp), productHypothesis⟩⟩

/-! ### Chains -/

/-- Phrases of the kind `whole` are chains of phrases of the kind `part` with these operators
between them. -/
structure IsChain (whole part : Phrase) (joins : Operator → Bool) : Prop where
  last : whole.last = part
  first : ∀ {tokens : List Token} {expr : Expr} {nesting : Nat},
    Derivation part tokens expr nesting → Derivation whole tokens expr nesting
  joined : ∀ {sign : Token} {operator : Operator} {front back : List Token} {left right : Expr}
    {leftNesting rightNesting : Nat}, sign.kind = .operator operator → joins operator = true →
    Derivation whole front left leftNesting → Derivation part back right rightNesting →
    Derivation whole (front ++ sign :: back) (.binary operator left right)
      (max leftNesting rightNesting)
  goesOn : ∀ operator, whole.goesOn operator = (joins operator || part.goesOn operator)
  apart : ∀ operator, joins operator = true → part.goesOn operator = false

theorem sum_isChain : IsChain .sum .product isSumOperator where
  last := rfl
  first := .term
  joined := .plus
  goesOn operator := by cases operator <;> rfl
  apart operator := by cases operator <;> decide

theorem product_isChain : IsChain .product .power isProductOperator where
  last := rfl
  first := .factor
  joined := .times
  goesOn operator := by cases operator <;> rfl
  apart operator := by cases operator <;> decide

/-- The tokens form a phrase of this kind that nests at most this many levels. -/
def Fits (phrase : Phrase) (bound : Nat) (tokens : List Token) : Prop :=
  ∃ expr nesting, Derivation phrase tokens expr nesting ∧ nesting ≤ bound

/-- The token is the sign of one of these operators. -/
def IsSign (operators : Operator → Bool) (token : Token) : Prop :=
  ∃ operator, token.kind = .operator operator ∧ operators operator = true

/-- The tokens are a chain, of whatever length, whose parts each nest at most this many levels: a
first part, and further parts each after the sign that joins it. -/
def FitsChain (part : Phrase) (joins : Operator → Bool) (bound : Nat) (tokens : List Token) :
    Prop :=
  ∃ (first : List Token) (links : List (Token × List Token)),
    tokens = first ++ links.flatMap (fun link => link.1 :: link.2) ∧ Fits part bound first ∧
      ∀ link ∈ links, IsSign joins link.1 ∧ Fits part bound link.2

/-- A chain nests no deeper than its parts. -/
theorem IsChain.fits_of_fitsChain {whole part : Phrase} {joins : Operator → Bool}
    (chain : IsChain whole part joins) {bound : Nat} {tokens : List Token}
    (fitsChain : FitsChain part joins bound tokens) : Fits whole bound tokens := by
  obtain ⟨first, links, rfl, ⟨expr, nesting, derived, fits⟩, linksFit⟩ := fitsChain
  have frontFits : Fits whole bound first := ⟨expr, nesting, chain.first derived, fits⟩
  clear derived fits
  induction links generalizing first with
  | nil => rwa [List.flatMap_nil, List.append_nil]
  | cons link links inductionHypothesis =>
    obtain ⟨left, leftNesting, leftDerived, leftFits⟩ := frontFits
    obtain ⟨⟨operator, kind, member⟩, right, rightNesting, rightDerived, rightFits⟩ :=
      linksFit link List.mem_cons_self
    have grown : Fits whole bound (first ++ link.1 :: link.2) :=
      ⟨_, _, chain.joined kind member leftDerived rightDerived,
        Nat.max_le.mpr ⟨leftFits, rightFits⟩⟩
    have rest := inductionHypothesis _ (fun link member => linksFit link (.tail _ member)) grown
    rwa [List.append_assoc] at rest

end DeskCalculator.Expr
