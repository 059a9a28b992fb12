/-
This file says step by step what the rules of the reader do. Each rule is
followed from the outcome of the readers it calls: where a chain goes on and
where it stops, when a power has an exponent, and what is read between
parentheses. The theorems about whole phrases use these steps and open no rule
again.
-/

import DeskCalculator.Proofs.Grammar

namespace DeskCalculator.Expr

/-! ### What tokens start with -/

/-- Whether the tokens start with one of these operators. -/
def startsWith (operators : Operator → Bool) : List Token → Bool
  | [] => false
  | token :: _ =>
    match token.kind with
    | .operator operator => operators operator
    | _ => false

theorem startsWith_eq_true_iff {operators : Operator → Bool} {tokens : List Token} :
    startsWith operators tokens = true ↔
      ∃ sign operator behind, tokens = sign :: behind ∧ sign.kind = .operator operator ∧
        operators operator = true := by
  constructor
  · intro starts
    unfold startsWith at starts
    split at starts
    · cases starts
    · rename_i sign behind
      split at starts
      · rename_i operator kind
        exact ⟨sign, operator, behind, rfl, kind, starts⟩
      · cases starts
  · rintro ⟨sign, operator, behind, rfl, kind, member⟩
    simp only [startsWith, kind, member]

theorem startsWith_cons {operators : Operator → Bool} {sign : Token} {operator : Operator}
    {behind : List Token} (kind : sign.kind = .operator operator) :
    startsWith operators (sign :: behind) = operators operator := by
  simp only [startsWith, kind]

theorem startsWith_of_not_operator {operators : Operator → Bool} {token : Token}
    {behind : List Token} (other : ∀ operator, token.kind ≠ .operator operator) :
    startsWith operators (token :: behind) = false := by
  rw [Bool.eq_false_iff]
  intro starts
  obtain ⟨_, operator, _, equal, kind, _⟩ := startsWith_eq_true_iff.mp starts
  cases equal
  exact other operator kind

theorem startsWith_closing {operators : Operator → Bool} {closing : Token} {behind : List Token}
    (closes : closing.kind = .closing) : startsWith operators (closing :: behind) = false :=
  startsWith_of_not_operator fun operator => by rw [closes]; exact TokenKind.noConfusion

theorem startsWith_operand (tokens : List Token) :
    startsWith Phrase.operand.goesOn tokens = false := by
  rw [Bool.eq_false_iff]
  intro starts
  obtain ⟨_, _, _, _, _, member⟩ := startsWith_eq_true_iff.mp starts
  cases member

theorem startsWith_or (first second : Operator → Bool) (tokens : List Token) :
    startsWith (fun operator => first operator || second operator) tokens =
      (startsWith first tokens || startsWith second tokens) := by
  unfold startsWith
  split
  · rfl
  · split <;> rfl

theorem IsChain.startsWith_goesOn {whole part : Phrase} {joins : Operator → Bool}
    (link : IsChain whole part joins) (tokens : List Token) :
    startsWith whole.goesOn tokens =
      (startsWith joins tokens || startsWith part.goesOn tokens) := by
  rw [← startsWith_or, funext link.goesOn]

/-! ### The reader of each kind of phrase -/

/-- The reader for phrases of a kind when this many levels may still be opened. -/
def reader (limit stop levels : Nat) : Phrase → Reader
  | .sum => sumOf (rules limit stop levels).power
  | .product => chain isProductOperator (rules limit stop levels).power
  | .power => (rules limit stop levels).power
  | .operand => (rules limit stop levels).operand

/-- The reader for the operand after a minus sign, which opens a level. -/
def negatedReader (limit stop : Nat) : Nat → Reader
  | 0 => refuseLevel limit stop
  | levels + 1 => reader limit stop levels .operand

theorem reader_power_succ (limit stop levels : Nat) :
    reader limit stop (levels + 1) .power =
      powerRule (reader limit stop levels .operand) (reader limit stop levels .power) := rfl

theorem reader_operand (limit stop levels : Nat) :
    reader limit stop levels .operand =
      operandRule stop (reader limit stop levels .sum) (negatedReader limit stop levels) := by
  cases levels <;> rfl

/-- What the reader of a phrase does once it has read some phrase of its kind: a chain goes on. -/
def resume (limit stop levels : Nat) : Phrase → Expr → Reader
  | .sum, left => fun rest =>
    chainFrom isSumOperator (reader limit stop levels .product) rest left rest
  | .product, left => fun rest =>
    chainFrom isProductOperator (reader limit stop levels .power) rest left rest
  | .power, expr => fun rest => .ok (expr, rest)
  | .operand, expr => fun rest => .ok (expr, rest)

/-- Phrases of the kind `whole` are chains, and their readers read them as chains. -/
structure IsChainRule (whole part : Phrase) (joins : Operator → Bool) : Prop
    extends IsChain whole part joins where
  reader_eq : ∀ limit stop levels,
    reader limit stop levels whole = chain joins (reader limit stop levels part)
  resume_eq : ∀ limit stop levels left rest, resume limit stop levels whole left rest =
    chainFrom joins (reader limit stop levels part) rest left rest

theorem sum_isChainRule : IsChainRule .sum .product isSumOperator where
  toIsChain := sum_isChain
  reader_eq _ _ _ := rfl
  resume_eq _ _ _ _ _ := rfl

theorem product_isChainRule : IsChainRule .product .power isProductOperator where
  toIsChain := product_isChain
  reader_eq _ _ _ := rfl
  resume_eq _ _ _ _ _ := rfl

/-- What holds of every kind of phrase with every number of levels: within one number of levels
the power comes first, then the chains of powers, and then the operand, which opens a level only
for a negation. -/
theorem rule_induction {motive : Phrase → Nat → Prop}
    (chain : ∀ {whole part : Phrase} {joins : Operator → Bool}, IsChainRule whole part joins →
      ∀ levels, motive part levels → motive whole levels)
    (powerZero : motive .power 0)
    (powerSucc : ∀ levels, motive .operand levels → motive .power levels →
      motive .power (levels + 1))
    (operandZero : motive .sum 0 → motive .operand 0)
    (operandSucc : ∀ levels, motive .sum (levels + 1) → motive .operand levels →
      motive .operand (levels + 1))
    (phrase : Phrase) (levels : Nat) : motive phrase levels := by
  have product : ∀ levels, motive .power levels → motive .product levels :=
    fun levels power => chain product_isChainRule levels power
  have sum : ∀ levels, motive .power levels → motive .sum levels :=
    fun levels power => chain sum_isChainRule levels (product levels power)
  have rules : ∀ levels, motive .power levels ∧ motive .operand levels := by
    intro levels
    induction levels with
    | zero => exact ⟨powerZero, operandZero (sum 0 powerZero)⟩
    | succ levels inductionHypothesis =>
      have power := powerSucc levels inductionHypothesis.2 inductionHypothesis.1
      exact ⟨power, operandSucc levels (sum (levels + 1) power) inductionHypothesis.2⟩
  cases phrase with
  | sum => exact sum levels (rules levels).1
  | product => exact product levels (rules levels).1
  | power => exact (rules levels).1
  | operand => exact (rules levels).2

/-! ### Steps of a chain -/

theorem chain_of_error {joins : Operator → Bool} {operand : Reader} {tokens : List Token}
    {fault : Fault} (refused : operand tokens = .error fault) :
    chain joins operand tokens = .error fault := by
  simp only [chain, refused]

theorem chainFrom_of_startsWith_eq_false {joins : Operator → Bool} {operand : Reader}
    {bound : List Token} {left : Expr} {tokens : List Token}
    (unjoined : startsWith joins tokens = false) :
    chainFrom joins operand bound left tokens = .ok (left, tokens) := by
  cases bound with
  | nil => rfl
  | cons next bound =>
    cases tokens with
    | nil => rfl
    | cons sign behind =>
      unfold chainFrom
      split
      · rename_i operator kind
        rw [if_neg]
        simpa only [startsWith, kind, Bool.not_eq_true] using unjoined
      · rfl

theorem chainFrom_cons_of_error {joins : Operator → Bool} {operand : Reader} {next sign : Token}
    {bound behind : List Token} {left : Expr} {operator : Operator} {fault : Fault}
    (kind : sign.kind = .operator operator) (member : joins operator = true)
    (refused : operand behind = .error fault) :
    chainFrom joins operand (next :: bound) left (sign :: behind) = .error fault := by
  rw [chainFrom]
  simp only [kind, member, if_true, refused]

theorem chainFrom_cons_of_ok {joins : Operator → Bool} {operand : Reader} {next sign : Token}
    {bound behind rest : List Token} {left right : Expr} {operator : Operator}
    (kind : sign.kind = .operator operator) (member : joins operator = true)
    (read : operand behind = .ok (right, rest)) :
    chainFrom joins operand (next :: bound) left (sign :: behind) =
      chainFrom joins operand bound (.binary operator left right) rest := by
  rw [chainFrom]
  simp only [kind, member, if_true, read]

/-! ### Steps of powers and operands -/

theorem powerRule_of_error {operand exponent : Reader} {tokens : List Token} {fault : Fault}
    (refused : operand tokens = .error fault) :
    powerRule operand exponent tokens = .error fault := by
  simp only [powerRule, refused]

theorem powerRule_of_ended {operand exponent : Reader} {tokens rest : List Token} {base : Expr}
    (read : operand tokens = .ok (base, rest))
    (ended : startsWith Phrase.power.goesOn rest = false) :
    powerRule operand exponent tokens = .ok (base, rest) := by
  unfold powerRule
  rw [read]
  cases rest with
  | nil => rfl
  | cons sign behind =>
    dsimp only
    rw [if_neg]
    intro raises
    rw [startsWith_cons raises] at ended
    cases ended

theorem powerRule_of_raised {operand exponent : Reader} {tokens behind : List Token} {base : Expr}
    {sign : Token} (raises : sign.kind = .operator .raise)
    (read : operand tokens = .ok (base, sign :: behind)) :
    powerRule operand exponent tokens =
      (exponent behind).map fun (upper, rest) => (.binary .raise base upper, rest) := by
  simp only [powerRule, read, raises, if_true]
  cases exponent behind <;> rfl

theorem expect_cons {stop : Nat} {kind : TokenKind} {cause : GrammarFault} {token : Token}
    {rest : List Token} (same : token.kind = kind) :
    expect stop kind cause (token :: rest) = .ok rest := by
  simp only [expect, same, if_true]

theorem expect_eq_ok {stop : Nat} {kind : TokenKind} {cause : GrammarFault}
    {tokens rest : List Token} (passed : expect stop kind cause tokens = .ok rest) :
    ∃ token : Token, token.kind = kind ∧ tokens = token :: rest := by
  unfold expect at passed
  split at passed
  · cases passed
  · rename_i token behind
    split at passed
    · rename_i same
      cases passed
      exact ⟨token, same, rfl⟩
    · cases passed

theorem enclosed_of_error {stop : Nat} {sum : Reader} {cause : GrammarFault} {tokens : List Token}
    {fault : Fault} (refused : sum tokens = .error fault) :
    enclosed stop sum cause tokens = .error fault := by
  simp only [enclosed, refused]

theorem enclosed_of_ok {stop : Nat} {sum : Reader} {cause : GrammarFault} {tokens : List Token}
    {expr : Expr} {closing : Token} {rest : List Token} (closes : closing.kind = .closing)
    (read : sum tokens = .ok (expr, closing :: rest)) :
    enclosed stop sum cause tokens = .ok (expr, rest) := by
  simp only [enclosed, read, expect_cons closes]
  rfl

theorem enclosed_of_expect_error {stop : Nat} {sum : Reader} {cause : GrammarFault}
    {tokens : List Token} {expr : Expr} {rest : List Token} {fault : Fault}
    (read : sum tokens = .ok (expr, rest))
    (missing : expect stop .closing cause rest = .error fault) :
    enclosed stop sum cause tokens = .error fault := by
  simp only [enclosed, read, missing]
  rfl

/-- A parenthesised part is a sum before a closing parenthesis. -/
theorem enclosed_eq_ok {stop : Nat} {sum : Reader} {cause : GrammarFault} {tokens : List Token}
    {expr : Expr} {rest : List Token} (read : enclosed stop sum cause tokens = .ok (expr, rest)) :
    ∃ closing : Token, closing.kind = .closing ∧ sum tokens = .ok (expr, closing :: rest) := by
  unfold enclosed at read
  split at read
  · cases read
  · rename_i inner after sumRead
    cases passed : expect stop .closing cause after with
    | error fault =>
      rw [passed] at read
      cases read
    | ok behind =>
      rw [passed] at read
      cases read
      obtain ⟨closing, closes, rfl⟩ := expect_eq_ok passed
      exact ⟨closing, closes, sumRead⟩

theorem operandRule_negation {stop : Nat} {sum negated : Reader} {sign : Token}
    {tokens : List Token} (minus : sign.kind = .operator .subtract) :
    operandRule stop sum negated (sign :: tokens) =
      (negated tokens).map fun (expr, rest) => (expr.negate, rest) := by
  simp only [operandRule, minus]

theorem operandRule_group {stop : Nat} {sum negated : Reader} {opening : Token}
    {tokens : List Token} (opens : opening.kind = .opening) :
    operandRule stop sum negated (opening :: tokens) =
      enclosed stop sum .unclosedGroup tokens := by
  simp only [operandRule, opens]

theorem operandRule_call {stop : Nat} {sum negated : Reader} {name opening : Token}
    {function : UnaryFunction} {tokens : List Token} (kind : name.kind = .function function)
    (opens : opening.kind = .opening) :
    operandRule stop sum negated (name :: opening :: tokens) =
      (enclosed stop sum .unclosedArgument tokens).map fun (argument, rest) =>
        (.call function argument, rest) := by
  simp only [operandRule, kind, expect_cons opens]

end DeskCalculator.Expr
