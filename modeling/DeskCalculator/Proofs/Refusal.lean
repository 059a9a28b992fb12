/-
This file explains the refusals of the rules of the grammar. A rule stops before
some token for one of two reasons: the grammar does not allow the token there,
or one more level would have to be opened than the limit allows. Either way the
tokens before it are the front of some phrase that nests at most one level more
than the limit allows, and the rule refuses every input that starts the same
way: in the first case whatever follows the token and however many levels are
left, in the second case whatever the token is. Each rule passes the refusals of
its parts on, so the argument runs along the rules that are open at that place.
-/

import DeskCalculator.Proofs.Reading

namespace DeskCalculator.Expr

/-! ### Refusals -/

/-- The tokens form a phrase of this kind. -/
def Phrase.Forms (phrase : Phrase) (tokens : List Token) : Prop :=
  ∃ expr nesting, Derivation phrase tokens expr nesting

/-- What can stand in the way of a rule. -/
inductive Obstacle where
  | grammar (cause : GrammarFault)
  | depth

/-- The fault for an obstacle at a position. -/
def Obstacle.fault (limit position : Nat) : Obstacle → Fault
  | grammar cause => .grammar cause position
  | depth => .tooDeep limit position

/-- When an obstacle that was met before some tokens is met again before others: one of the grammar
depends on the next token only, and no further level takes it away; one of depth depends on the
levels only. -/
def Obstacle.Stays (after : List Token) (levels : Nat) (other : List Token) (otherLevels : Nat) :
    Obstacle → Prop
  | grammar _ => levels ≤ otherLevels ∧ other.head? = after.head?
  | depth => otherLevels = levels

/-- Readers for every limit, every position of the end and every number of levels. -/
abbrev Run (α : Type) := (limit stop levels : Nat) → List Token → Except Fault α

/-- With these levels a run that should find one of these forms meets an obstacle between the
tokens: the tokens before it are the front of such a form, and the obstacle is met again wherever
it stays. -/
structure Refusal {α : Type} (run : Run α) (forms : List Token → Prop) (levels : Nat)
    (before after : List Token) (obstacle : Obstacle) : Prop where
  viable : ∃ rest, forms (before ++ rest)
  again : ∀ limit stop otherLevels other, obstacle.Stays after levels other otherLevels →
    run limit stop otherLevels (before ++ other) =
      .error (obstacle.fault limit (nextPosition stop other))

/-- The fault is that of an obstacle somewhere in the tokens. -/
def Explained {α : Type} (run : Run α) (forms : List Token → Prop) (limit stop levels : Nat)
    (tokens : List Token) (fault : Fault) : Prop :=
  ∃ before after obstacle, tokens = before ++ after ∧
    fault = obstacle.fault limit (nextPosition stop after) ∧
    Refusal run forms levels before after obstacle

/-- With these levels every refusal of the run is explained by an obstacle. -/
def Explains {α : Type} (run : Run α) (forms : List Token → Prop) (levels : Nat) : Prop :=
  ∀ limit stop tokens fault, run limit stop levels tokens = .error fault →
    Explained run forms limit stop levels tokens fault

theorem Obstacle.stays_refl (obstacle : Obstacle) (after : List Token) (levels : Nat) :
    obstacle.Stays after levels after levels := by
  cases obstacle with
  | grammar cause => exact ⟨Nat.le_refl levels, rfl⟩
  | depth => rfl

/-- An obstacle that stays below some more levels stays below as many levels. -/
theorem Obstacle.Stays.of_add {obstacle : Obstacle} {after other : List Token}
    {levels otherLevels shift : Nat}
    (stays : obstacle.Stays after (levels + shift) other otherLevels) :
    ∃ lower, otherLevels = lower + shift ∧ levels ≤ lower ∧
      obstacle.Stays after levels other lower := by
  cases obstacle with
  | grammar cause =>
    obtain ⟨more, same⟩ := stays
    have fits : levels ≤ otherLevels - shift := Nat.le_sub_of_add_le more
    exact ⟨otherLevels - shift,
      (Nat.sub_add_cancel (Nat.le_trans (Nat.le_add_left shift levels) more)).symm, fits, fits,
      same⟩
  | depth => exact ⟨levels, stays, Nat.le_refl levels, rfl⟩

section

variable {α β : Type} {run : Run α} {forms : List Token → Prop} {limit stop levels : Nat}
  {fault : Fault}

/-- An obstacle that is met wherever it stays explains the fault. -/
theorem Explained.of_again {after : List Token} (before : List Token) (obstacle : Obstacle)
    (viable : ∃ rest, forms (before ++ rest))
    (again : ∀ limit stop otherLevels other, obstacle.Stays after levels other otherLevels →
      run limit stop otherLevels (before ++ other) =
        .error (obstacle.fault limit (nextPosition stop other)))
    (refused : run limit stop levels (before ++ after) = .error fault) :
    Explained run forms limit stop levels (before ++ after) fault := by
  rw [again limit stop levels after (obstacle.stays_refl after levels)] at refused
  cases refused
  exact ⟨before, after, obstacle, rfl, rfl, viable, again⟩

/-- A run passes an explained fault of a part on, when it can complete the part and refuses after
the front whatever the part refuses. -/
theorem Explained.within {outer : Run β} {outerForms : List Token → Prop} {behind : List Token}
    (explained : Explained run forms limit stop levels behind fault) (shift : Nat)
    (front : List Token)
    (completes : ∀ tokens, forms tokens → ∃ rest, outerForms (front ++ (tokens ++ rest)))
    (passes : ∀ limit stop otherLevels input fault, levels ≤ otherLevels →
      run limit stop otherLevels input = .error fault →
      outer limit stop (otherLevels + shift) (front ++ input) = .error fault) :
    Explained outer outerForms limit stop (levels + shift) (front ++ behind) fault := by
  obtain ⟨before, after, obstacle, rfl, rfl, refusal⟩ := explained
  refine ⟨front ++ before, after, obstacle, (List.append_assoc _ _ _).symm, rfl, ?_, ?_⟩
  · obtain ⟨rest, formed⟩ := refusal.viable
    obtain ⟨more, completed⟩ := completes _ formed
    refine ⟨rest ++ more, ?_⟩
    rwa [List.append_assoc, ← List.append_assoc before]
  · intro limit stop otherLevels other stays
    obtain ⟨lower, rfl, fits, lowerStays⟩ := stays.of_add
    rw [List.append_assoc]
    exact passes _ _ _ _ _ fits (refusal.again limit stop lower other lowerStays)

/-- The same for a part that ends what it is a part of. -/
theorem Explained.within_last {outer : Run β} {outerForms : List Token → Prop}
    {behind : List Token} (explained : Explained run forms limit stop levels behind fault)
    (shift : Nat) (front : List Token)
    (completes : ∀ tokens, forms tokens → outerForms (front ++ tokens))
    (passes : ∀ limit stop otherLevels input fault, levels ≤ otherLevels →
      run limit stop otherLevels input = .error fault →
      outer limit stop (otherLevels + shift) (front ++ input) = .error fault) :
    Explained outer outerForms limit stop (levels + shift) (front ++ behind) fault := by
  refine explained.within shift front (fun tokens formed => ⟨[], ?_⟩) passes
  rw [List.append_nil]
  exact completes tokens formed

end

/-! ### Parts of rules -/

theorem startsWith_congr {operators : Operator → Bool} {tokens other : List Token}
    (same : other.head? = tokens.head?) :
    startsWith operators other = startsWith operators tokens := by
  cases tokens <;> cases other <;> cases same <;> rfl

theorem expect_of_head?_eq {stop : Nat} {kind : TokenKind} {cause : GrammarFault}
    {tokens : List Token} {fault : Fault} (refused : expect stop kind cause tokens = .error fault)
    {other : List Token} (same : other.head? = tokens.head?) (otherStop : Nat) :
    expect otherStop kind cause other =
      .error (.grammar cause (nextPosition otherStop other)) := by
  cases tokens with
  | nil =>
    obtain rfl : other = [] := List.head?_eq_none_iff.mp same
    rfl
  | cons token rest =>
    obtain ⟨behind, rfl⟩ := List.head?_eq_some_iff.mp same
    by_cases expected : token.kind = kind
    · rw [expect_cons expected] at refused
      cases refused
    · simp only [expect, expected, if_false, nextPosition]

/-! ### Tokens that complete a phrase -/

/-- A constant, which can stand wherever a phrase is expected. -/
def someOperand : Token :=
  ⟨.constant .pi, "PI", 0⟩

/-- An opening parenthesis. -/
def someOpening : Token :=
  ⟨.opening, "(", 0⟩

/-- A closing parenthesis. -/
def someClosing : Token :=
  ⟨.closing, ")", 0⟩

theorem someOperand_derived :
    Derivation .operand [someOperand] (.number Constant.pi.value) 0 := .constant rfl

theorem someOperand_fits (phrase : Phrase) (levels : Nat) :
    Fits phrase (levels + 1) [someOperand] := by
  have power := Derivation.base someOperand_derived
  have atMostOne : 0 + 1 ≤ levels + 1 := Nat.succ_le_succ (Nat.zero_le levels)
  cases phrase with
  | sum => exact ⟨_, _, .term (.factor power), atMostOne⟩
  | product => exact ⟨_, _, .factor power, atMostOne⟩
  | power => exact ⟨_, _, power, atMostOne⟩
  | operand => exact ⟨_, _, someOperand_derived, Nat.zero_le _⟩

/-- A sum that nests at most this many levels, and the parenthesis that closes it. -/
def Closed (bound : Nat) (tokens : List Token) : Prop :=
  ∃ inner closing, tokens = inner ++ [closing] ∧ closing.kind = .closing ∧ Fits .sum bound inner

theorem Closed.group {bound : Nat} {tokens : List Token} (closed : Closed bound tokens)
    {opening : Token} (opens : opening.kind = .opening) :
    Fits .operand bound (opening :: tokens) := by
  obtain ⟨inner, closing, rfl, closes, expr, nesting, derived, fits⟩ := closed
  exact ⟨_, _, .group opens closes derived, fits⟩

theorem Closed.call {bound : Nat} {tokens : List Token} (closed : Closed bound tokens)
    {name opening : Token} {function : UnaryFunction} (kind : name.kind = .function function)
    (opens : opening.kind = .opening) : Fits .operand bound (name :: opening :: tokens) := by
  obtain ⟨inner, closing, rfl, closes, expr, nesting, derived, fits⟩ := closed
  exact ⟨_, _, .call kind opens closes derived, fits⟩

theorem someClosing_closed {bound : Nat} {inner : List Token} (fits : Fits .sum bound inner) :
    Closed bound (inner ++ [someClosing]) :=
  ⟨inner, someClosing, rfl, rfl, fits⟩

/-! ### Refusals of the rules -/

/-- The readers of one kind of phrase. -/
def readers (phrase : Phrase) : Run (Expr × List Token) := fun limit stop levels =>
  reader limit stop levels phrase

/-- The readers of parenthesised parts. -/
def enclosedReaders (cause : GrammarFault) : Run (Expr × List Token) := fun limit stop levels =>
  enclosed stop (reader limit stop levels .sum) cause

theorem explains_of_refuseLevel {run : Run (Expr × List Token)} {phrase : Phrase}
    (refuses : ∀ limit stop, run limit stop 0 = refuseLevel limit stop) :
    Explains run (Fits phrase 1) 0 := by
  intro limit stop tokens fault refused
  refine Explained.of_again [] .depth ⟨_, someOperand_fits phrase 0⟩ ?_ refused
  intro limit stop otherLevels other stays
  cases stays
  rw [refuses]
  rfl

theorem chainFrom_explained {whole part : Phrase} {joins : Operator → Bool}
    (rule : IsChainRule whole part joins) {limit stop levels : Nat}
    (explains : Explains (readers part) (Fits part (levels + 1)) levels) (bound : List Token)
    {left : Expr}
    {front tokens : List Token} {nesting : Nat} (derived : Derivation whole front left nesting)
    (fits : nesting ≤ levels) {fault : Fault}
    (refused : chainFrom joins (reader limit stop levels part) bound left tokens = .error fault) :
    Explained (readers whole) (Fits whole (levels + 1)) limit stop levels (front ++ tokens)
      fault := by
  -- The refused operand comes after some links, which with enough levels are read again.
  induction bound generalizing left front tokens nesting with
  | nil => cases refused
  | cons next bound inductionHypothesis =>
    cases joined : startsWith joins tokens with
    | false =>
      rw [chainFrom_of_startsWith_eq_false joined] at refused
      cases refused
    | true =>
      obtain ⟨sign, operator, behind, rfl, kind, member⟩ := startsWith_eq_true_iff.mp joined
      cases operandRead : reader limit stop levels part behind with
      | error partFault =>
        rw [chainFrom_cons_of_error kind member operandRead] at refused
        cases refused
        have explained := explains limit stop behind fault operandRead
        rw [← List.singleton_append, ← List.append_assoc]
        refine explained.within_last 0 (front ++ [sign]) ?_ ?_
        · rintro tokens ⟨right, rightNesting, rightDerived, rightFits⟩
          rw [List.append_assoc, List.singleton_append]
          exact ⟨_, _, rule.joined kind member derived rightDerived,
            Nat.max_le.mpr ⟨Nat.le_succ_of_le fits, rightFits⟩⟩
        · intro limit stop otherLevels input fault more refused
          have frontEnded : startsWith whole.last.goesOn (sign :: input) = false := by
            rw [rule.last, startsWith_cons kind]
            exact rule.apart operator member
          show reader limit stop otherLevels whole (front ++ [sign] ++ input) = .error fault
          rw [List.append_assoc, List.singleton_append,
            derived.readsFront limit stop (Nat.le_trans fits more) _ frontEnded]
          exact rule.resume_joined_of_error kind member refused
      | ok result =>
        obtain ⟨right, rest⟩ := result
        rw [chainFrom_cons_of_ok kind member operandRead] at refused
        obtain ⟨middle, rightNesting, rfl, rightDerived, rightFits, _⟩ :=
          reader_reads limit stop levels part _ _ _ operandRead
        have grown := rule.joined kind member derived rightDerived
        have explained := inductionHypothesis grown (Nat.max_le.mpr ⟨fits, rightFits⟩) refused
        rwa [List.append_assoc, List.cons_append] at explained

theorem chain_explains {whole part : Phrase} {joins : Operator → Bool}
    (rule : IsChainRule whole part joins) {levels : Nat}
    (explains : Explains (readers part) (Fits part (levels + 1)) levels) :
    Explains (readers whole) (Fits whole (levels + 1)) levels := by
  intro limit stop tokens fault refused
  have chained : chain joins (reader limit stop levels part) tokens = .error fault := by
    rw [← rule.reader_eq]
    exact refused
  unfold chain at chained
  split at chained
  · rename_i partFault partRefused
    cases chained
    refine (explains limit stop tokens fault partRefused).within_last 0 [] ?_ ?_
    · rintro tokens ⟨expr, nesting, derived, fits⟩
      exact ⟨expr, nesting, rule.first derived, fits⟩
    · intro limit stop otherLevels input fault _ refused
      show reader limit stop otherLevels whole input = .error fault
      rw [rule.reader_eq]
      exact chain_of_error refused
  · rename_i left rest partRead
    obtain ⟨front, nesting, rfl, derived, fits, _⟩ :=
      reader_reads limit stop levels part _ _ _ partRead
    exact chainFrom_explained rule explains rest (rule.first derived) fits chained

theorem power_explains {levels : Nat}
    (operandExplains : Explains (readers .operand) (Fits .operand (levels + 1)) levels)
    (powerExplains : Explains (readers .power) (Fits .power (levels + 1)) levels) :
    Explains (readers .power) (Fits .power (levels + 2)) (levels + 1) := by
  intro limit stop tokens fault refused
  have ruled : powerRule (reader limit stop levels .operand) (reader limit stop levels .power)
      tokens = .error fault := refused
  unfold powerRule at ruled
  split at ruled
  · rename_i operandFault operandRefused
    cases ruled
    refine (operandExplains limit stop tokens fault operandRefused).within_last 1 [] ?_ ?_
    · rintro tokens ⟨expr, nesting, derived, fits⟩
      exact ⟨expr, nesting + 1, .base derived, Nat.succ_le_succ fits⟩
    · intro limit stop otherLevels input fault _ refused
      exact powerRule_of_error refused
  · cases ruled
  · rename_i base sign behind operandRead
    obtain ⟨front, nesting, rfl, derived, fits, _⟩ :=
      reader_reads limit stop levels .operand _ _ _ operandRead
    split at ruled
    · rename_i raises
      split at ruled
      · rename_i powerFault powerRefused
        cases ruled
        rw [← List.singleton_append, ← List.append_assoc]
        have explained := powerExplains limit stop behind fault powerRefused
        refine explained.within_last 1 (front ++ [sign]) ?_ ?_
        · rintro tokens ⟨exponent, exponentNesting, exponentDerived, exponentFits⟩
          rw [List.append_assoc, List.singleton_append]
          exact ⟨_, _, .raised raises derived exponentDerived,
            Nat.succ_le_succ (Nat.max_le.mpr ⟨Nat.le_succ_of_le fits, exponentFits⟩)⟩
        · intro limit stop otherLevels input fault more refused
          have read := derived.reader_of_ended limit stop (Nat.le_trans fits more)
            (startsWith_operand (sign :: input))
          show reader limit stop (otherLevels + 1) .power (front ++ [sign] ++ input) = .error fault
          rw [List.append_assoc, List.singleton_append, reader_power_succ,
            powerRule_of_raised raises read, show reader _ _ _ _ input = _ from refused]
          rfl
      · cases ruled
    · cases ruled

theorem enclosed_explains (cause : GrammarFault) {levels : Nat}
    (sumExplains : Explains (readers .sum) (Fits .sum (levels + 1)) levels) :
    Explains (enclosedReaders cause) (Closed (levels + 1)) levels := by
  intro limit stop tokens fault refused
  cases sumRead : reader limit stop levels .sum tokens with
  | error sumFault =>
    have same : enclosedReaders cause limit stop levels tokens = .error sumFault :=
      enclosed_of_error sumRead
    rw [same] at refused
    cases refused
    refine (sumExplains limit stop tokens fault sumRead).within 0 [] ?_ ?_
    · intro tokens formed
      exact ⟨[someClosing], someClosing_closed formed⟩
    · intro limit stop otherLevels input fault _ refused
      exact enclosed_of_error refused
  | ok result =>
    obtain ⟨expr, rest⟩ := result
    obtain ⟨front, nesting, rfl, derived, fits, ended⟩ :=
      reader_reads limit stop levels .sum _ _ _ sumRead
    have missing : ∃ fault, expect stop .closing cause rest = .error fault := by
      cases passed : expect stop .closing cause rest with
      | error fault => exact ⟨fault, rfl⟩
      | ok behind =>
        obtain ⟨closing, closes, rfl⟩ := expect_eq_ok passed
        have read : enclosedReaders cause limit stop levels (front ++ closing :: behind) =
            .ok (expr, behind) := enclosed_of_ok closes sumRead
        rw [read] at refused
        cases refused
    obtain ⟨_, missing⟩ := missing
    refine Explained.of_again front (.grammar cause)
      ⟨[someClosing], someClosing_closed ⟨expr, nesting, derived, Nat.le_succ_of_le fits⟩⟩ ?_
      refused
    rintro limit stop otherLevels other ⟨more, same⟩
    have read : reader limit stop otherLevels .sum (front ++ other) = .ok (expr, other) := by
      refine derived.reader_of_ended limit stop (Nat.le_trans fits more) ?_
      rw [startsWith_congr same]
      exact ended
    exact enclosed_of_expect_error read (expect_of_head?_eq missing same stop)

/-- The readers of the operand after a minus sign. -/
def negatedReaders : Run (Expr × List Token) := negatedReader

theorem negated_explains_zero : Explains negatedReaders (Fits .operand 0) 0 := by
  intro limit stop tokens fault refused
  refine Explained.of_again [] .depth ⟨_, _, _, someOperand_derived, Nat.le_refl 0⟩ ?_ refused
  intro limit stop otherLevels other stays
  cases stays
  rfl

theorem negated_explains_succ {levels : Nat}
    (operandExplains : Explains (readers .operand) (Fits .operand (levels + 1)) levels) :
    Explains negatedReaders (Fits .operand (levels + 1)) (levels + 1) := by
  intro limit stop tokens fault refused
  refine (operandExplains limit stop tokens fault refused).within_last 1 [] ?_ ?_
  · intro tokens formed
    exact formed
  · intro limit stop otherLevels input fault _ refused
    exact refused

/-- A token that no operand starts with is refused whatever follows it. -/
theorem operand_explained_at_head (cause : GrammarFault) {token : Token}
    (atHead : ∀ limit stop levels behind, reader limit stop levels .operand (token :: behind) =
      .error (.grammar cause token.position))
    {limit stop levels : Nat} {rest : List Token} {fault : Fault}
    (refused : reader limit stop levels .operand (token :: rest) = .error fault) :
    Explained (readers .operand) (Fits .operand (levels + 1)) limit stop levels (token :: rest)
      fault := by
  refine Explained.of_again [] (.grammar cause) ⟨_, someOperand_fits .operand levels⟩ ?_ refused
  rintro limit stop otherLevels other ⟨_, same⟩
  obtain ⟨behind, rfl⟩ := List.head?_eq_some_iff.mp same
  exact atHead limit stop otherLevels behind

theorem negation_explained {limit stop levels : Nat}
    (negatedExplains : Explains negatedReaders (Fits .operand levels) levels) {sign : Token}
    (minus : sign.kind = .operator .subtract) {rest : List Token} {fault : Fault}
    (refused : reader limit stop levels .operand (sign :: rest) = .error fault) :
    Explained (readers .operand) (Fits .operand (levels + 1)) limit stop levels (sign :: rest)
      fault := by
  rw [reader_operand, operandRule_negation minus] at refused
  cases negatedRead : negatedReader limit stop levels rest with
  | ok result =>
    rw [negatedRead] at refused
    cases refused
  | error negatedFault =>
    rw [negatedRead] at refused
    cases refused
    refine (negatedExplains limit stop rest fault negatedRead).within_last 0 [sign] ?_ ?_
    · rintro tokens ⟨expr, nesting, derived, fits⟩
      exact ⟨expr.negate, nesting + 1, .negation minus derived, Nat.succ_le_succ fits⟩
    · intro limit stop otherLevels input fault _ inputRefused
      show reader limit stop otherLevels .operand (sign :: input) = .error fault
      rw [reader_operand, operandRule_negation minus,
        show negatedReader limit stop otherLevels input = .error fault from inputRefused]
      rfl

theorem group_explained {limit stop levels : Nat}
    (sumExplains : Explains (readers .sum) (Fits .sum (levels + 1)) levels) {opening : Token}
    (opens : opening.kind = .opening) {rest : List Token} {fault : Fault}
    (refused : reader limit stop levels .operand (opening :: rest) = .error fault) :
    Explained (readers .operand) (Fits .operand (levels + 1)) limit stop levels (opening :: rest)
      fault := by
  rw [reader_operand, operandRule_group opens] at refused
  have explained := enclosed_explains .unclosedGroup sumExplains limit stop rest fault refused
  refine explained.within_last 0 [opening] ?_ ?_
  · intro tokens closed
    exact closed.group opens
  · intro limit stop otherLevels input fault _ inputRefused
    show reader limit stop otherLevels .operand (opening :: input) = .error fault
    rw [reader_operand, operandRule_group opens]
    exact inputRefused

theorem call_explained {limit stop levels : Nat}
    (sumExplains : Explains (readers .sum) (Fits .sum (levels + 1)) levels) {name : Token}
    {function : UnaryFunction} (kind : name.kind = .function function) {rest : List Token}
    {fault : Fault} (refused : reader limit stop levels .operand (name :: rest) = .error fault) :
    Explained (readers .operand) (Fits .operand (levels + 1)) limit stop levels (name :: rest)
      fault := by
  cases passed : expect stop .opening .missingArgument rest with
  | error missingFault =>
    refine Explained.of_again [name] (.grammar .missingArgument)
      ⟨[someOpening, someOperand, someClosing], ?_⟩ ?_ refused
    · exact (someClosing_closed (someOperand_fits .sum levels)).call kind rfl
    · rintro limit stop otherLevels other ⟨_, same⟩
      show reader limit stop otherLevels .operand (name :: other) = _
      rw [reader_operand]
      simp only [operandRule, kind, expect_of_head?_eq passed same stop]
      rfl
  | ok behind =>
    obtain ⟨opening, opens, rfl⟩ := expect_eq_ok passed
    rw [reader_operand, operandRule_call kind opens] at refused
    cases argumentRead : enclosed stop (reader limit stop levels .sum) .unclosedArgument behind with
    | ok result =>
      rw [argumentRead] at refused
      cases refused
    | error argumentFault =>
      rw [argumentRead] at refused
      cases refused
      have explained :=
        enclosed_explains .unclosedArgument sumExplains limit stop behind fault argumentRead
      refine explained.within_last 0 [name, opening] ?_ ?_
      · intro tokens closed
        exact closed.call kind opens
      · intro limit stop otherLevels input fault _ inputRefused
        show reader limit stop otherLevels .operand (name :: opening :: input) = .error fault
        rw [reader_operand, operandRule_call kind opens,
          show enclosed stop _ .unclosedArgument input = .error fault from inputRefused]
        rfl

theorem operand_explains {levels : Nat}
    (sumExplains : Explains (readers .sum) (Fits .sum (levels + 1)) levels)
    (negatedExplains : Explains negatedReaders (Fits .operand levels) levels) :
    Explains (readers .operand) (Fits .operand (levels + 1)) levels := by
  intro limit stop tokens fault refused
  cases tokens with
  | nil =>
    refine Explained.of_again [] (.grammar .unexpectedEnd) ⟨_, someOperand_fits .operand levels⟩
      ?_ refused
    rintro limit stop otherLevels other ⟨_, same⟩
    obtain rfl : other = [] := List.head?_eq_none_iff.mp same
    rw [readers, reader_operand]
    rfl
  | cons token rest =>
    cases kind : token.kind with
    | number =>
      cases spelled : Numeral.read? token.text with
      | some value =>
        rw [readers, reader_operand] at refused
        simp only [operandRule, kind, numberOf, spelled] at refused
        cases refused
      | none =>
        refine operand_explained_at_head (.badNumeral token.text) ?_ refused
        intro limit stop levels behind
        rw [reader_operand]
        simp only [operandRule, kind, numberOf, spelled]
        rfl
    | constant constant =>
      rw [readers, reader_operand] at refused
      simp only [operandRule, kind] at refused
      cases refused
    | operator operator =>
      by_cases minus : operator = .subtract
      · subst minus
        exact negation_explained negatedExplains kind refused
      · refine operand_explained_at_head (.unexpectedToken token.text) ?_ refused
        intro limit stop levels behind
        rw [reader_operand]
        cases operator with
        | subtract => exact absurd rfl minus
        | _ => simp only [operandRule, kind]
    | opening => exact group_explained sumExplains kind refused
    | function function => exact call_explained sumExplains kind refused
    | closing =>
      refine operand_explained_at_head (.unexpectedToken token.text) ?_ refused
      intro limit stop levels behind
      rw [reader_operand]
      simp only [operandRule, kind]
    | stop =>
      refine operand_explained_at_head .unexpectedEnd ?_ refused
      intro limit stop levels behind
      rw [reader_operand]
      simp only [operandRule, kind]

/-- Every refusal of a rule is explained. -/
theorem reader_explains (levels : Nat) (phrase : Phrase) :
    Explains (readers phrase) (Fits phrase (levels + 1)) levels := by
  refine rule_induction (motive := fun phrase levels =>
    Explains (readers phrase) (Fits phrase (levels + 1)) levels) ?_ ?_ ?_ ?_ ?_ phrase levels
  · intro whole part joins rule levels partExplains
    exact chain_explains rule partExplains
  · exact explains_of_refuseLevel fun _ _ => rfl
  · intro levels operandExplains powerExplains
    exact power_explains operandExplains powerExplains
  · intro sumExplains
    exact operand_explains sumExplains negated_explains_zero
  · intro levels sumExplains operandExplains
    exact operand_explains sumExplains (negated_explains_succ operandExplains)

end DeskCalculator.Expr
