/-
This file proves that reading tokens finds exactly what the grammar derives.
Whatever a rule takes off the front of the tokens is a phrase that nests within
the levels it may open. Conversely a rule reads every phrase that fits, whatever
follows it, and refuses a phrase that nests deeper as soon as a level is
missing. So a list of tokens is read as a tree exactly when the grammar derives
the tree within the limit, and a list of tokens has one tree at most.
-/

import DeskCalculator.Proofs.Rules

namespace DeskCalculator.Expr

/-! ### What is read is derived -/

/-- Whatever the reader takes off the front of the tokens is a phrase that nests at most this many
levels, and the reader stops only where the phrase cannot go on. -/
def Reads (phrase : Phrase) (levels : Nat) (read : Reader) : Prop :=
  ∀ tokens expr rest, read tokens = .ok (expr, rest) →
    ∃ front nesting, tokens = front ++ rest ∧ Derivation phrase front expr nesting ∧
      nesting ≤ levels ∧ startsWith phrase.goesOn rest = false

theorem refuseLevel_reads (phrase : Phrase) (limit stop levels : Nat) :
    Reads phrase levels (refuseLevel limit stop) := by
  intro tokens expr rest read
  cases read

/-- A chain that has been read up to some place is read to its end. -/
theorem chainFrom_reads {whole part : Phrase} {joins : Operator → Bool} {levels : Nat}
    {operand : Reader} (link : IsChain whole part joins) (reads : Reads part levels operand)
    (bound : List Token) {left expr : Expr} {front tokens rest : List Token} {nesting : Nat}
    (derived : Derivation whole front left nesting) (fits : nesting ≤ levels)
    (ended : startsWith part.goesOn tokens = false) (bounded : tokens.length ≤ bound.length)
    (read : chainFrom joins operand bound left tokens = .ok (expr, rest)) :
    ∃ more total, tokens = more ++ rest ∧ Derivation whole (front ++ more) expr total ∧
      total ≤ levels ∧ startsWith whole.goesOn rest = false := by
  -- With every operand the front grows by one link, and what is left stays within the bound.
  induction bound generalizing left front tokens nesting with
  | nil =>
    obtain rfl : tokens = [] := List.length_eq_zero_iff.mp (Nat.le_zero.mp bounded)
    cases read
    exact ⟨[], nesting, rfl, by rwa [List.append_nil], fits, rfl⟩
  | cons next bound inductionHypothesis =>
    cases joined : startsWith joins tokens with
    | false =>
      rw [chainFrom_of_startsWith_eq_false joined] at read
      cases read
      refine ⟨[], nesting, rfl, by rwa [List.append_nil], fits, ?_⟩
      rw [link.startsWith_goesOn, joined, ended]
      rfl
    | true =>
      obtain ⟨sign, operator, behind, rfl, kind, member⟩ := startsWith_eq_true_iff.mp joined
      cases operandRead : operand behind with
      | error fault =>
        rw [chainFrom_cons_of_error kind member operandRead] at read
        cases read
      | ok result =>
        obtain ⟨right, after⟩ := result
        rw [chainFrom_cons_of_ok kind member operandRead] at read
        obtain ⟨middle, rightNesting, rfl, rightDerived, rightFits, rightEnded⟩ :=
          reads _ _ _ operandRead
        have remaining : after.length ≤ bound.length := by
          simp only [List.length_cons, List.length_append] at bounded
          omega
        obtain ⟨more, total, rfl, wholeDerived, wholeFits, wholeEnded⟩ :=
          inductionHypothesis (link.joined kind member derived rightDerived)
            (Nat.max_le.mpr ⟨fits, rightFits⟩) rightEnded remaining read
        refine ⟨sign :: middle ++ more, total, ?_, ?_, wholeFits, wholeEnded⟩
        · rw [List.cons_append, List.cons_append, List.append_assoc]
        · rwa [List.append_assoc, List.cons_append] at wholeDerived

theorem chain_reads {whole part : Phrase} {joins : Operator → Bool} {levels : Nat}
    {operand : Reader} (link : IsChain whole part joins) (reads : Reads part levels operand) :
    Reads whole levels (chain joins operand) := by
  intro tokens expr rest read
  unfold chain at read
  split at read
  · cases read
  · rename_i left after operandRead
    obtain ⟨front, nesting, rfl, derived, fits, ended⟩ := reads _ _ _ operandRead
    obtain ⟨more, total, rfl, wholeDerived, wholeFits, wholeEnded⟩ :=
      chainFrom_reads link reads after (link.first derived) fits ended (Nat.le_refl _) read
    exact ⟨front ++ more, total, (List.append_assoc _ _ _).symm, wholeDerived, wholeFits,
      wholeEnded⟩

theorem powerRule_reads {levels : Nat} {operand exponent : Reader}
    (operandReads : Reads .operand levels operand) (exponentReads : Reads .power levels exponent) :
    Reads .power (levels + 1) (powerRule operand exponent) := by
  intro tokens expr rest read
  unfold powerRule at read
  split at read
  · cases read
  · rename_i base operandRead
    cases read
    obtain ⟨front, nesting, rfl, derived, fits, ended⟩ := operandReads _ _ _ operandRead
    exact ⟨front, nesting + 1, rfl, .base derived, Nat.succ_le_succ fits, rfl⟩
  · rename_i base sign after operandRead
    obtain ⟨front, nesting, rfl, derived, fits, ended⟩ := operandReads _ _ _ operandRead
    split at read
    · rename_i raises
      split at read
      · cases read
      · rename_i upper behind exponentRead
        cases read
        obtain ⟨back, upperNesting, rfl, upperDerived, upperFits, upperEnded⟩ :=
          exponentReads _ _ _ exponentRead
        refine ⟨front ++ sign :: back, max nesting upperNesting + 1, ?_,
          .raised raises derived upperDerived,
          Nat.succ_le_succ (Nat.max_le.mpr ⟨fits, upperFits⟩), upperEnded⟩
        rw [List.append_assoc, List.cons_append]
    · rename_i single
      cases read
      refine ⟨front, nesting + 1, rfl, .base derived, Nat.succ_le_succ fits, ?_⟩
      rw [Bool.eq_false_iff]
      intro starts
      obtain ⟨_, operator, _, equal, kind, member⟩ := startsWith_eq_true_iff.mp starts
      cases equal
      exact single (by rw [kind, of_decide_eq_true member])

theorem operandRule_reads {stop levels : Nat} {sum negated : Reader}
    (sumReads : Reads .sum levels sum)
    (negatedReads : ∀ tokens expr rest, negated tokens = .ok (expr, rest) →
      ∃ front nesting, tokens = front ++ rest ∧ Derivation .operand front expr nesting ∧
        nesting + 1 ≤ levels) :
    Reads .operand levels (operandRule stop sum negated) := by
  intro tokens expr rest read
  unfold operandRule at read
  split at read
  · cases read
  · rename_i token behind
    split at read
    · rename_i kind
      unfold numberOf at read
      split at read
      · rename_i value spelled
        cases read
        exact ⟨[token], 0, rfl, .number kind spelled, Nat.zero_le _, startsWith_operand _⟩
      · cases read
    · rename_i constant kind
      cases read
      exact ⟨[token], 0, rfl, .constant kind, Nat.zero_le _, startsWith_operand _⟩
    · rename_i minus
      cases negatedRead : negated behind with
      | error fault =>
        rw [negatedRead] at read
        cases read
      | ok result =>
        rw [negatedRead] at read
        cases read
        obtain ⟨front, nesting, split, derived, fits⟩ := negatedReads _ _ _ negatedRead
        exact ⟨token :: front, nesting + 1, congrArg (token :: ·) split, .negation minus derived,
          fits, startsWith_operand _⟩
    · rename_i opens
      obtain ⟨closing, closes, sumRead⟩ := enclosed_eq_ok read
      obtain ⟨inner, nesting, rfl, derived, fits, _⟩ := sumReads _ _ _ sumRead
      exact ⟨token :: (inner ++ [closing]), nesting, by simp, .group opens closes derived, fits,
        startsWith_operand _⟩
    · rename_i function kind
      split at read
      · cases read
      · rename_i after passed
        obtain ⟨opening, opens, rfl⟩ := expect_eq_ok passed
        cases argumentRead : enclosed stop sum .unclosedArgument after with
        | error fault =>
          rw [argumentRead] at read
          cases read
        | ok result =>
          rw [argumentRead] at read
          cases read
          obtain ⟨closing, closes, sumRead⟩ := enclosed_eq_ok argumentRead
          obtain ⟨inner, nesting, rfl, derived, fits, _⟩ := sumReads _ _ _ sumRead
          exact ⟨token :: opening :: (inner ++ [closing]), nesting, by simp,
            .call kind opens closes derived, fits, startsWith_operand _⟩
    · cases read
    · cases read
    · cases read

/-- Every rule reads phrases of its kind that nest within its levels. -/
theorem reader_reads (limit stop levels : Nat) (phrase : Phrase) :
    Reads phrase levels (reader limit stop levels phrase) := by
  refine rule_induction (motive := fun phrase levels =>
    Reads phrase levels (reader limit stop levels phrase)) ?_ ?_ ?_ ?_ ?_ phrase levels
  · intro whole part joins rule levels partReads
    rw [rule.reader_eq]
    exact chain_reads rule.toIsChain partReads
  · exact refuseLevel_reads .power limit stop 0
  · intro levels operandReads powerReads
    exact powerRule_reads operandReads powerReads
  · intro sumReads
    rw [reader_operand]
    refine operandRule_reads sumReads ?_
    intro tokens expr rest read
    cases read
  · intro levels sumReads operandReads
    rw [reader_operand]
    refine operandRule_reads sumReads ?_
    intro tokens expr rest read
    obtain ⟨front, nesting, split, derived, fits, _⟩ := operandReads _ _ _ read
    exact ⟨front, nesting, split, derived, Nat.succ_le_succ fits⟩

/-! ### What is derived is read -/

theorem last_of_ended {phrase : Phrase} {rest : List Token}
    (ended : startsWith phrase.goesOn rest = false) :
    startsWith phrase.last.goesOn rest = false := by
  cases phrase with
  | sum =>
    rw [sum_isChain.startsWith_goesOn, Bool.or_eq_false_iff] at ended
    exact ended.2
  | product =>
    rw [product_isChain.startsWith_goesOn, Bool.or_eq_false_iff] at ended
    exact ended.2
  | power => exact ended
  | operand => exact ended

theorem resume_of_ended {limit stop levels : Nat} {phrase : Phrase} {expr : Expr}
    {rest : List Token} (ended : startsWith phrase.goesOn rest = false) :
    resume limit stop levels phrase expr rest = .ok (expr, rest) := by
  cases phrase with
  | sum =>
    rw [sum_isChain.startsWith_goesOn, Bool.or_eq_false_iff] at ended
    exact chainFrom_of_startsWith_eq_false ended.1
  | product =>
    rw [product_isChain.startsWith_goesOn, Bool.or_eq_false_iff] at ended
    exact chainFrom_of_startsWith_eq_false ended.1
  | power => rfl
  | operand => rfl

theorem reader_shrinks {limit stop levels : Nat} {phrase : Phrase} {tokens : List Token}
    {expr : Expr} {rest : List Token}
    (read : reader limit stop levels phrase tokens = .ok (expr, rest)) :
    rest.length ≤ tokens.length := by
  obtain ⟨front, _, rfl, _⟩ := reader_reads limit stop levels phrase _ _ _ read
  rw [List.length_append]
  exact Nat.le_add_left _ _

/-- A bound that is long enough does not show in what a chain reads. -/
theorem chainFrom_eq_of_length_le {joins : Operator → Bool} {operand : Reader}
    (shrinks : ∀ tokens expr rest, operand tokens = .ok (expr, rest) →
      rest.length ≤ tokens.length)
    (bound other : List Token) {left : Expr} {tokens : List Token}
    (bounded : tokens.length ≤ bound.length) (otherBounded : tokens.length ≤ other.length) :
    chainFrom joins operand bound left tokens = chainFrom joins operand other left tokens := by
  induction bound generalizing other left tokens with
  | nil =>
    obtain rfl : tokens = [] := List.length_eq_zero_iff.mp (Nat.le_zero.mp bounded)
    rw [chainFrom_of_startsWith_eq_false rfl, chainFrom_of_startsWith_eq_false rfl]
  | cons next bound inductionHypothesis =>
    cases joined : startsWith joins tokens with
    | false =>
      rw [chainFrom_of_startsWith_eq_false joined, chainFrom_of_startsWith_eq_false joined]
    | true =>
      obtain ⟨sign, operator, behind, rfl, kind, member⟩ := startsWith_eq_true_iff.mp joined
      cases other with
      | nil => cases otherBounded
      | cons otherNext other =>
        cases operandRead : operand behind with
        | error fault =>
          rw [chainFrom_cons_of_error kind member operandRead,
            chainFrom_cons_of_error kind member operandRead]
        | ok result =>
          obtain ⟨right, rest⟩ := result
          rw [chainFrom_cons_of_ok kind member operandRead,
            chainFrom_cons_of_ok kind member operandRead]
          have shrunk := shrinks _ _ _ operandRead
          have rest_le_bound : rest.length ≤ bound.length :=
            Nat.le_trans shrunk (Nat.le_of_succ_le_succ bounded)
          have rest_le_other : rest.length ≤ other.length :=
            Nat.le_trans shrunk (Nat.le_of_succ_le_succ otherBounded)
          exact inductionHypothesis other rest_le_bound rest_le_other

/-- After one more operand a chain goes on from the grown tree. -/
theorem IsChainRule.resume_joined {whole part : Phrase} {joins : Operator → Bool}
    (rule : IsChainRule whole part joins) {limit stop levels : Nat} {sign : Token}
    {operator : Operator} {left right : Expr} {behind rest : List Token}
    (kind : sign.kind = .operator operator) (member : joins operator = true)
    (read : reader limit stop levels part behind = .ok (right, rest)) :
    resume limit stop levels whole left (sign :: behind) =
      resume limit stop levels whole (.binary operator left right) rest := by
  rw [rule.resume_eq, rule.resume_eq, chainFrom_cons_of_ok kind member read]
  exact chainFrom_eq_of_length_le (fun _ _ _ => reader_shrinks) _ _ (reader_shrinks read)
    (Nat.le_refl _)

theorem IsChainRule.resume_joined_of_error {whole part : Phrase} {joins : Operator → Bool}
    (rule : IsChainRule whole part joins) {limit stop levels : Nat} {sign : Token}
    {operator : Operator} {left : Expr} {behind : List Token} {fault : Fault}
    (kind : sign.kind = .operator operator) (member : joins operator = true)
    (refused : reader limit stop levels part behind = .error fault) :
    resume limit stop levels whole left (sign :: behind) = .error fault := by
  rw [rule.resume_eq]
  exact chainFrom_cons_of_error kind member refused

/-- The reader of this kind, with these levels, reads the tokens as the front of a longer input and
resumes after them, unless their last part goes on with what follows. -/
def ReadsFront (limit stop levels : Nat) (phrase : Phrase) (tokens : List Token) (expr : Expr) :
    Prop :=
  ∀ rest, startsWith phrase.last.goesOn rest = false →
    reader limit stop levels phrase (tokens ++ rest) = resume limit stop levels phrase expr rest

theorem ReadsFront.reader_of_ended {limit stop levels : Nat} {phrase : Phrase}
    {tokens rest : List Token} {expr : Expr}
    (reads : ReadsFront limit stop levels phrase tokens expr)
    (ended : startsWith phrase.goesOn rest = false) :
    reader limit stop levels phrase (tokens ++ rest) = .ok (expr, rest) := by
  rw [reads rest (last_of_ended ended), resume_of_ended ended]

/-- The first part of a chain is the front of the chain. -/
theorem IsChainRule.readsFront_first {whole part : Phrase} {joins : Operator → Bool}
    (rule : IsChainRule whole part joins) {limit stop levels : Nat} {tokens : List Token}
    {expr : Expr} (reads : ReadsFront limit stop levels part tokens expr) :
    ReadsFront limit stop levels whole tokens expr := by
  intro rest ended
  rw [rule.last] at ended
  rw [rule.reader_eq, chain, reads.reader_of_ended ended, rule.resume_eq]

/-- A chain grown by one part is the front of a longer chain. -/
theorem IsChainRule.readsFront_joined {whole part : Phrase} {joins : Operator → Bool}
    (rule : IsChainRule whole part joins) {limit stop levels : Nat} {sign : Token}
    {operator : Operator} {front back : List Token} {left right : Expr}
    (kind : sign.kind = .operator operator) (member : joins operator = true)
    (frontReads : ReadsFront limit stop levels whole front left)
    (backReads : ReadsFront limit stop levels part back right) :
    ReadsFront limit stop levels whole (front ++ sign :: back) (.binary operator left right) := by
  intro rest ended
  have frontEnded : startsWith whole.last.goesOn (sign :: (back ++ rest)) = false := by
    rw [rule.last, startsWith_cons kind]
    exact rule.apart operator member
  rw [rule.last] at ended
  rw [List.append_assoc, List.cons_append, frontReads _ frontEnded]
  exact rule.resume_joined kind member (backReads.reader_of_ended ended)

/-- A rule reads every phrase of its kind that nests within its levels. Only the last part of the
phrase must not go on with what follows; where the phrase itself does, its reader resumes. -/
theorem Derivation.readsFront {phrase : Phrase} {tokens : List Token} {expr : Expr}
    {nesting : Nat} (derived : Derivation phrase tokens expr nesting) (limit stop : Nat)
    {levels : Nat} (fits : nesting ≤ levels) :
    ReadsFront limit stop levels phrase tokens expr := by
  induction derived generalizing levels with
  | number kind spelled =>
    intro rest ended
    rw [reader_operand]
    simp only [List.cons_append, List.nil_append, operandRule, kind, numberOf, spelled]
    rfl
  | constant kind =>
    intro rest ended
    rw [reader_operand]
    simp only [List.cons_append, List.nil_append, operandRule, kind]
    rfl
  | negation minus operand inductionHypothesis =>
    intro rest ended
    cases levels with
    | zero => cases fits
    | succ levels =>
      have operandRead := inductionHypothesis (Nat.le_of_succ_le_succ fits) rest ended
      rw [reader_operand, List.cons_append, operandRule_negation minus, negatedReader,
        operandRead]
      rfl
  | @group _ closing _ _ _ opens closes inner inductionHypothesis =>
    intro rest ended
    have innerEnded : startsWith Phrase.sum.goesOn (closing :: rest) = false :=
      startsWith_closing closes
    rw [reader_operand, List.cons_append, List.append_assoc, List.singleton_append,
      operandRule_group opens]
    exact enclosed_of_ok closes ((inductionHypothesis fits).reader_of_ended innerEnded)
  | @call _ _ closing _ _ _ _ kind opens closes inner inductionHypothesis =>
    intro rest ended
    have innerEnded : startsWith Phrase.sum.goesOn (closing :: rest) = false :=
      startsWith_closing closes
    rw [reader_operand, List.cons_append, List.cons_append, List.append_assoc,
      List.singleton_append, operandRule_call kind opens,
      enclosed_of_ok closes ((inductionHypothesis fits).reader_of_ended innerEnded)]
    rfl
  | base operand inductionHypothesis =>
    intro rest ended
    cases levels with
    | zero => cases fits
    | succ levels =>
      have operandRead := inductionHypothesis (Nat.le_of_succ_le_succ fits) rest
        (startsWith_operand rest)
      rw [reader_power_succ, powerRule_of_ended operandRead ended]
      rfl
  | raised raises operand power operandHypothesis powerHypothesis =>
    intro rest ended
    cases levels with
    | zero => cases fits
    | succ levels =>
      have bounds := Nat.max_le.mp (Nat.le_of_succ_le_succ fits)
      rw [reader_power_succ, List.append_assoc, List.cons_append,
        powerRule_of_raised raises (operandHypothesis bounds.1 _ (startsWith_operand _)),
        powerHypothesis bounds.2 rest ended]
      rfl
  | factor power inductionHypothesis =>
    exact product_isChainRule.readsFront_first (inductionHypothesis fits)
  | times kind joins product power productHypothesis powerHypothesis =>
    have bounds := Nat.max_le.mp fits
    exact product_isChainRule.readsFront_joined kind joins (productHypothesis bounds.1)
      (powerHypothesis bounds.2)
  | term product inductionHypothesis =>
    exact sum_isChainRule.readsFront_first (inductionHypothesis fits)
  | plus kind joins sum product sumHypothesis productHypothesis =>
    have bounds := Nat.max_le.mp fits
    exact sum_isChainRule.readsFront_joined kind joins (sumHypothesis bounds.1)
      (productHypothesis bounds.2)

/-- A rule reads every phrase of its kind that nests within its levels and that has ended. -/
theorem Derivation.reader_of_ended {phrase : Phrase} {tokens : List Token} {expr : Expr}
    {nesting : Nat} (derived : Derivation phrase tokens expr nesting) (limit stop : Nat)
    {levels : Nat} (fits : nesting ≤ levels) {rest : List Token}
    (ended : startsWith phrase.goesOn rest = false) :
    reader limit stop levels phrase (tokens ++ rest) = .ok (expr, rest) :=
  (derived.readsFront limit stop fits).reader_of_ended ended

/-! ### What nests too deeply is refused -/

/-- The reader of this kind refuses every input that starts with these tokens for its depth. -/
def RefusesDepth (limit stop levels : Nat) (phrase : Phrase) (tokens : List Token) : Prop :=
  ∀ rest, ∃ position,
    reader limit stop levels phrase (tokens ++ rest) = .error (.tooDeep limit position)

theorem IsChainRule.refusesDepth_first {whole part : Phrase} {joins : Operator → Bool}
    (rule : IsChainRule whole part joins) {limit stop levels : Nat} {tokens : List Token}
    (refuses : RefusesDepth limit stop levels part tokens) :
    RefusesDepth limit stop levels whole tokens := by
  intro rest
  obtain ⟨position, refused⟩ := refuses rest
  refine ⟨position, ?_⟩
  rw [rule.reader_eq]
  exact chain_of_error refused

/-- A chain is refused for its depth when its front is, or when its front fits and its last part
is refused. -/
theorem IsChainRule.refusesDepth_joined {whole part : Phrase} {joins : Operator → Bool}
    (rule : IsChainRule whole part joins) {limit stop levels : Nat} {sign : Token}
    {operator : Operator} {front back : List Token} {left : Expr} {leftNesting : Nat}
    (kind : sign.kind = .operator operator) (member : joins operator = true)
    (derived : Derivation whole front left leftNesting)
    (frontRefuses : levels < leftNesting → RefusesDepth limit stop levels whole front)
    (backRefuses : leftNesting ≤ levels → RefusesDepth limit stop levels part back) :
    RefusesDepth limit stop levels whole (front ++ sign :: back) := by
  intro rest
  rw [List.append_assoc, List.cons_append]
  by_cases leftFits : leftNesting ≤ levels
  · obtain ⟨position, refused⟩ := backRefuses leftFits rest
    have frontEnded : startsWith whole.last.goesOn (sign :: (back ++ rest)) = false := by
      rw [rule.last, startsWith_cons kind]
      exact rule.apart operator member
    refine ⟨position, ?_⟩
    rw [derived.readsFront limit stop leftFits _ frontEnded]
    exact rule.resume_joined_of_error kind member refused
  · exact frontRefuses (Nat.lt_of_not_le leftFits) (sign :: (back ++ rest))

/-- A rule refuses every phrase of its kind that nests deeper than its levels. -/
theorem Derivation.refusesDepth {phrase : Phrase} {tokens : List Token} {expr : Expr}
    {nesting : Nat} (derived : Derivation phrase tokens expr nesting) (limit stop : Nat)
    {levels : Nat} (deep : levels < nesting) : RefusesDepth limit stop levels phrase tokens := by
  induction derived generalizing levels with
  | number => exact absurd deep (Nat.not_lt_zero _)
  | constant => exact absurd deep (Nat.not_lt_zero _)
  | @negation _ tokens _ _ minus operand inductionHypothesis =>
    intro rest
    have refused : ∃ position, negatedReader limit stop levels (tokens ++ rest) =
        .error (.tooDeep limit position) := by
      cases levels with
      | zero => exact ⟨_, rfl⟩
      | succ levels => exact inductionHypothesis (Nat.lt_of_succ_lt_succ deep) rest
    obtain ⟨position, refused⟩ := refused
    refine ⟨position, ?_⟩
    rw [reader_operand, List.cons_append, operandRule_negation minus, refused]
    rfl
  | @group _ closing _ _ _ opens closes inner inductionHypothesis =>
    intro rest
    obtain ⟨position, refused⟩ := inductionHypothesis deep (closing :: rest)
    refine ⟨position, ?_⟩
    rw [reader_operand, List.cons_append, List.append_assoc, List.singleton_append,
      operandRule_group opens, enclosed_of_error refused]
  | @call _ _ closing _ _ _ _ kind opens closes inner inductionHypothesis =>
    intro rest
    obtain ⟨position, refused⟩ := inductionHypothesis deep (closing :: rest)
    refine ⟨position, ?_⟩
    rw [reader_operand, List.cons_append, List.cons_append, List.append_assoc,
      List.singleton_append, operandRule_call kind opens, enclosed_of_error refused]
    rfl
  | base operand inductionHypothesis =>
    intro rest
    cases levels with
    | zero => exact ⟨_, rfl⟩
    | succ levels =>
      obtain ⟨position, refused⟩ := inductionHypothesis (Nat.lt_of_succ_lt_succ deep) rest
      exact ⟨position, powerRule_of_error refused⟩
  | @raised sign lower upper _ _ lowerNesting upperNesting raises operand power operandHypothesis
      powerHypothesis =>
    intro rest
    rw [List.append_assoc, List.cons_append]
    cases levels with
    | zero => exact ⟨_, rfl⟩
    | succ levels =>
      rw [reader_power_succ]
      -- The base is read first, so the exponent is reached only when the base fits.
      by_cases lowerFits : lowerNesting ≤ levels
      · have upperDeep : levels < upperNesting := by omega
        obtain ⟨position, refused⟩ := powerHypothesis upperDeep rest
        refine ⟨position, ?_⟩
        rw [powerRule_of_raised raises
          (operand.readsFront limit stop lowerFits _ (startsWith_operand _)), refused]
        rfl
      · obtain ⟨position, refused⟩ :=
          operandHypothesis (Nat.lt_of_not_le lowerFits) (sign :: (upper ++ rest))
        exact ⟨position, powerRule_of_error refused⟩
  | factor power inductionHypothesis =>
    exact product_isChainRule.refusesDepth_first (inductionHypothesis deep)
  | times kind joins product power productHypothesis powerHypothesis =>
    refine product_isChainRule.refusesDepth_joined kind joins product productHypothesis ?_
    intro leftFits
    exact powerHypothesis (by omega)
  | term product inductionHypothesis =>
    exact sum_isChainRule.refusesDepth_first (inductionHypothesis deep)
  | plus kind joins sum product sumHypothesis productHypothesis =>
    refine sum_isChainRule.refusesDepth_joined kind joins sum sumHypothesis ?_
    intro leftFits
    exact productHypothesis (by omega)

/-! ### Whole inputs -/

/-- Tokens form one sentence at most, with one tree and one nesting. -/
theorem Derivation.unique {tokens : List Token} {first second : Expr}
    {firstNesting secondNesting : Nat} (left : Derivation .sum tokens first firstNesting)
    (right : Derivation .sum tokens second secondNesting) :
    first = second ∧ firstNesting = secondNesting := by
  have nests_le : ∀ {expr other : Expr} {nesting otherNesting : Nat},
      Derivation .sum tokens expr nesting → Derivation .sum tokens other otherNesting →
      otherNesting ≤ nesting := by
    intro expr other nesting otherNesting derived otherDerived
    refine Nat.le_of_not_lt fun deep => ?_
    have read : reader 0 0 nesting .sum (tokens ++ []) = .ok (expr, []) :=
      derived.reader_of_ended 0 0 (Nat.le_refl _) rfl
    obtain ⟨position, refused⟩ := otherDerived.refusesDepth 0 0 deep []
    rw [read] at refused
    cases refused
  have same : firstNesting = secondNesting :=
    Nat.le_antisymm (nests_le right left) (nests_le left right)
  subst same
  have read : reader 0 0 firstNesting .sum (tokens ++ []) = .ok (first, []) :=
    left.reader_of_ended 0 0 (Nat.le_refl _) rfl
  rw [right.reader_of_ended 0 0 (Nat.le_refl _) rfl] at read
  cases read
  exact ⟨rfl, rfl⟩

/-- The body of an input is read as a tree exactly when the grammar derives the tree within the
limit. -/
theorem ofBody_eq_ok_iff {limit stop : Nat} {body : List Token} {expr : Expr} :
    ofBody limit stop body = .ok expr ↔
      ∃ nesting, Derivation .sum body expr nesting ∧ nesting ≤ limit := by
  constructor
  · intro read
    unfold ofBody at read
    split at read
    · cases read
    · rename_i tree sumRead
      cases read
      obtain ⟨front, nesting, rfl, derived, fits, _⟩ :=
        reader_reads limit stop limit .sum _ _ _ sumRead
      rw [List.append_nil]
      exact ⟨nesting, derived, fits⟩
    · cases read
  · rintro ⟨nesting, derived, fits⟩
    have read : reader limit stop limit .sum (body ++ []) = .ok (expr, []) :=
      derived.reader_of_ended limit stop fits rfl
    rw [List.append_nil] at read
    unfold ofBody
    rw [show sumOf (rules limit stop limit).power body = .ok (expr, []) from read]

/-- A body that forms a sentence is refused for its depth when the sentence nests too deeply. -/
theorem ofBody_of_lt {limit : Nat} {body : List Token} {expr : Expr} {nesting : Nat}
    (derived : Derivation .sum body expr nesting) (deep : limit < nesting) (stop : Nat) :
    ∃ position, ofBody limit stop body = .error (.tooDeep limit position) := by
  obtain ⟨position, refused⟩ := derived.refusesDepth limit stop deep []
  rw [List.append_nil] at refused
  refine ⟨position, ?_⟩
  unfold ofBody
  rw [show sumOf (rules limit stop limit).power body = .error (.tooDeep limit position) from
    refused]

theorem body_append {words : List Token} (inside : ∀ word ∈ words, word.isStop = false)
    (rest : List Token) : body (words ++ rest) = words ++ body rest := by
  unfold body
  exact List.takeWhile_append_of_pos fun word member => by rw [inside word member]; rfl

theorem stopPosition_append {words : List Token} (inside : ∀ word ∈ words, word.isStop = false)
    (rest : List Token) : stopPosition (words ++ rest) = stopPosition rest := by
  unfold stopPosition
  rw [List.dropWhile_append_of_pos fun word member => by rw [inside word member]; rfl]

theorem body_cons_of_stop {stop : Token} (ends : stop.isStop = true) (rest : List Token) :
    body (stop :: rest) = [] := by
  simp [body, ends]

theorem stopPosition_cons_of_stop {stop : Token} (ends : stop.isStop = true)
    (rest : List Token) : stopPosition (stop :: rest) = stop.position := by
  simp [stopPosition, ends, nextPosition]

theorem ofTokens_of_getLast? {tokens : List Token} {stop : Token}
    (ended : tokens.getLast? = some stop) (ends : stop.isStop = true) (requested : Nat) :
    ofTokens requested tokens =
      ofBody (clampLimit requested) (stopPosition tokens) (body tokens) := by
  simp only [ofTokens, ended, ends, if_true]

/-- The tokens before the first end token of an input that is read as a tree form a sentence that
nests within the limit. -/
theorem exists_derivation_of_ofTokens {requested : Nat} {tokens : List Token} {expr : Expr}
    (read : ofTokens requested tokens = .ok expr) :
    ∃ nesting, Derivation .sum (body tokens) expr nesting ∧ nesting ≤ clampLimit requested := by
  unfold ofTokens at read
  split at read
  · cases read
  · split at read
    · exact ofBody_eq_ok_iff.mp read
    · cases read

theorem ofTokens_append_stop {requested : Nat} {words : List Token} {stop : Token}
    (inside : ∀ word ∈ words, word.isStop = false) (ends : stop.isStop = true) :
    ofTokens requested (words ++ [stop]) =
      ofBody (clampLimit requested) stop.position words := by
  rw [ofTokens_of_getLast? List.getLast?_concat ends, body_append inside,
    stopPosition_append inside, body_cons_of_stop ends, stopPosition_cons_of_stop ends,
    List.append_nil]

/-- An input that ends at its only end token is read as a tree exactly when the grammar derives
the tree from the tokens before the end within the limit. The grammar derives one tree at most,
with one nesting; and a chain is read whatever its length, as long as each of its parts fits. -/
theorem ofTokens_eq_ok_iff_derivation (requested : Nat) (words : List Token) (stop : Token)
    (inside : ∀ word ∈ words, word.isStop = false) (ends : stop.isStop = true) :
    (∀ expr, ofTokens requested (words ++ [stop]) = .ok expr ↔
      ∃ nesting, Derivation .sum words expr nesting ∧ nesting ≤ clampLimit requested) ∧
    (∀ first second firstNesting secondNesting, Derivation .sum words first firstNesting →
      Derivation .sum words second secondNesting →
      first = second ∧ firstNesting = secondNesting) ∧
    (FitsChain .product isSumOperator (clampLimit requested) words ∨
        FitsChain .power isProductOperator (clampLimit requested) words →
      ∃ expr, ofTokens requested (words ++ [stop]) = .ok expr) := by
  have readable : ∀ expr, ofTokens requested (words ++ [stop]) = .ok expr ↔
      ∃ nesting, Derivation .sum words expr nesting ∧ nesting ≤ clampLimit requested := by
    intro expr
    rw [ofTokens_append_stop inside ends]
    exact ofBody_eq_ok_iff
  refine ⟨readable, fun _ _ _ _ => Derivation.unique, ?_⟩
  rintro (sums | products)
  · obtain ⟨expr, nesting, derived, fits⟩ := sum_isChain.fits_of_fitsChain sums
    exact ⟨expr, (readable expr).mpr ⟨nesting, derived, fits⟩⟩
  · obtain ⟨expr, nesting, derived, fits⟩ := product_isChain.fits_of_fitsChain products
    exact ⟨expr, (readable expr).mpr ⟨nesting, .term derived, fits⟩⟩

/-- The words of `-2 ^ 3`, a power whose operand is negated. -/
def negatedPower : List Token :=
  [⟨.operator .subtract, "-", 0⟩, ⟨.number, "2", 1⟩, ⟨.operator .raise, "^", 3⟩,
    ⟨.number, "3", 5⟩]

/-- The negation stands under the power and opens a level of its own. -/
theorem ofTokens_negatedPower :
    (∀ word ∈ negatedPower, word.isStop = false) ∧ (Token.stop 6).isStop = true ∧
      ofTokens 2 (negatedPower ++ [.stop 6]) =
        .ok (.binary .raise (.negate (.number 2.0)) (.number 3.0)) := by
  have inside : ∀ word ∈ negatedPower, word.isStop = false := by decide
  refine ⟨inside, by decide, ?_⟩
  refine ((ofTokens_eq_ok_iff_derivation 2 negatedPower (.stop 6) inside (by decide)).1 _).mpr
    ⟨2, ?_, by decide⟩
  have two : Numeral.read? "2" = some 2.0 := by decide +kernel
  have three : Numeral.read? "3" = some 3.0 := by decide +kernel
  have operand : Derivation .operand [⟨.operator .subtract, "-", 0⟩, ⟨.number, "2", 1⟩]
      (.negate (.number 2.0)) 1 := .negation rfl (.number rfl two)
  have exponent : Derivation .power [⟨.number, "3", 5⟩] (.number 3.0) 1 :=
    .base (.number rfl three)
  have power : Derivation .power negatedPower
      (.binary .raise (.negate (.number 2.0)) (.number 3.0)) 2 :=
    .raised rfl operand exponent
  exact .term (.factor power)

end DeskCalculator.Expr
