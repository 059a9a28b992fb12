/-
This file proves that the rules of a walk close every level they open. A rule
may be refused anywhere between opening a level and closing it; a walk on a
level of its own closes it all the same, so what one walk keeps is kept by the
walks that are put together from it. On the way no more levels are open than
the limit allows, no level is closed that was not opened on the way, and the
cursor never moves back. A rule that finds something has taken a token, and
stops in front of one that it could not have gone on with.
-/

import DeskCalculator.Proofs.Following

namespace DeskCalculator.Expr

/-! ### Balanced walks -/

/-- The step has at least this many levels open, and at most as many as the limit allows; one that
closes a level has more of them open. -/
structure Step.Keeps (limit level : Nat) (step : Step) : Prop where
  level_le : level ≤ step.nesting
  nesting_le : step.nesting ≤ limit
  leaves : step.action = .leave → level < step.nesting

/-- From one state to the other the cursor moves forwards, and all steps keep their levels. -/
def Travels (limit level : Nat) (walker after : Walker) : Prop :=
  walker.cursor ≤ after.cursor ∧
    ∃ steps, after.steps = steps ++ walker.steps ∧
      (∀ step ∈ steps, step.Keeps limit level ∧
        walker.cursor ≤ step.cursor ∧ step.cursor ≤ after.cursor) ∧
      steps.Pairwise fun later earlier => earlier.cursor ≤ later.cursor

/-- From one state to the other the levels that are opened are closed again, and no others. -/
structure Balanced (limit : Nat) (walker after : Walker) : Prop where
  nesting_eq : after.nesting = walker.nesting
  travels : Travels limit walker.nesting walker after

section

variable {limit level : Nat} {walker between after : Walker}

theorem Travels.refl (limit level : Nat) (walker : Walker) : Travels limit level walker walker :=
  ⟨Nat.le_refl _, [], rfl, List.forall_mem_nil _, .nil⟩

theorem Travels.step {action : Action} (forwards : walker.cursor ≤ after.cursor)
    (noted : after.steps = ⟨action, walker.cursor, walker.nesting⟩ :: walker.steps)
    (keeps : Step.Keeps limit level ⟨action, walker.cursor, walker.nesting⟩) :
    Travels limit level walker after :=
  ⟨forwards, [_], noted, List.forall_mem_singleton.mpr ⟨keeps, Nat.le_refl _, forwards⟩,
    List.pairwise_singleton _ _⟩

theorem Travels.trans (first : Travels limit level walker between)
    (second : Travels limit level between after) : Travels limit level walker after := by
  obtain ⟨firstForwards, firstSteps, first_eq, firstKeep, firstSorted⟩ := first
  obtain ⟨secondForwards, secondSteps, second_eq, secondKeep, secondSorted⟩ := second
  refine ⟨firstForwards.trans secondForwards, secondSteps ++ firstSteps, ?_, ?_, ?_⟩
  · rw [second_eq, first_eq, List.append_assoc]
  · refine List.forall_mem_append.mpr ⟨fun step member => ?_, fun step member => ?_⟩
    · obtain ⟨keeps, above, below⟩ := secondKeep step member
      exact ⟨keeps, firstForwards.trans above, below⟩
    · obtain ⟨keeps, above, below⟩ := firstKeep step member
      exact ⟨keeps, above, below.trans secondForwards⟩
  · refine List.pairwise_append.mpr ⟨secondSorted, firstSorted, ?_⟩
    intro later laterMember earlier earlierMember
    exact (firstKeep earlier earlierMember).2.2.trans (secondKeep later laterMember).2.1

/-- What keeps more levels open keeps fewer open. -/
theorem Travels.mono {higher : Nat} (le : level ≤ higher)
    (travels : Travels limit higher walker after) : Travels limit level walker after := by
  obtain ⟨forwards, steps, steps_eq, keep, sorted⟩ := travels
  refine ⟨forwards, steps, steps_eq, fun step member => ?_, sorted⟩
  obtain ⟨keeps, place⟩ := keep step member
  exact ⟨⟨le.trans keeps.level_le, keeps.nesting_le,
    fun leaves => Nat.lt_of_le_of_lt le (keeps.leaves leaves)⟩, place⟩

theorem Balanced.refl (limit : Nat) (walker : Walker) : Balanced limit walker walker :=
  ⟨rfl, .refl _ _ _⟩

theorem Balanced.trans (first : Balanced limit walker between)
    (second : Balanced limit between after) : Balanced limit walker after :=
  ⟨second.nesting_eq.trans first.nesting_eq,
    first.travels.trans (first.nesting_eq ▸ second.travels)⟩

/-- An action that opens and closes no level leaves the levels balanced. -/
theorem Balanced.step {action : Action} (free : walker.nesting ≤ limit) (other : action ≠ .leave)
    (same : after.nesting = walker.nesting) (forwards : walker.cursor ≤ after.cursor)
    (noted : after.steps = ⟨action, walker.cursor, walker.nesting⟩ :: walker.steps) :
    Balanced limit walker after :=
  ⟨same, .step forwards noted ⟨Nat.le_refl _, free, fun leaves => absurd leaves other⟩⟩

/-- What is balanced on one more level is balanced when this level is opened before and closed
after it. -/
theorem Balanced.onLevel (free : walker.nesting < limit)
    (inner : Balanced limit walker.entered after) : Balanced limit walker after.left := by
  have nesting_eq : after.nesting = walker.nesting + 1 := inner.nesting_eq
  refine ⟨?_, ?_⟩
  · show after.nesting - 1 = walker.nesting
    rw [nesting_eq, Nat.add_sub_cancel]
  · have entered : Travels limit walker.nesting walker walker.entered :=
      .step (Nat.le_refl _) rfl
        ⟨Nat.le_refl _, free.le, fun leaves => nomatch leaves⟩
    have left : Travels limit walker.nesting after after.left :=
      .step (Nat.le_refl _) rfl
        ⟨nesting_eq ▸ Nat.le_succ _, nesting_eq ▸ free, fun _ => nesting_eq ▸ Nat.lt_succ_self _⟩
    exact (entered.trans (inner.travels.mono (Nat.le_succ _))).trans left

end

/-! ### Walks that balance their levels -/

/-- Wherever the walk comes to something from, its levels are balanced on the way. -/
def Balances {Result : Type} (limit : Nat) (walk : Walk Result) : Prop :=
  ∀ walker outcome after, walker.nesting ≤ limit →
    walk.outcome? walker = some (outcome, after) → Balanced limit walker after

namespace Walk

section

variable {First Result : Type} {limit : Nat} {tokens : List Token}

theorem balances_pure (result : Result) : Balances limit (pure result) := by
  rintro walker _ _ _ ⟨⟩
  exact .refl limit walker

theorem balances_throw (fault : Fault) : Balances limit (throw fault : Walk Result) := by
  rintro walker _ _ _ ⟨⟩
  exact .refl limit walker

theorem balances_stuck : Balances limit (stuck : Walk Result) :=
  fun _ _ _ _ nothing => nomatch nothing

theorem balances_numberOf (token : Token) : Balances limit (numberOf token : Walk Expr) := by
  rintro walker _ _ _ ⟨⟩
  exact .refl limit walker

theorem balances_bind {walk : Walk First} {next : First → Walk Result}
    (front : Balances limit walk) (back : ∀ first, Balances limit (next first)) :
    Balances limit (walk >>= next) := by
  intro walker outcome after free walked
  rw [outcome?_bind] at walked
  obtain ⟨⟨reached, between⟩, found, rest⟩ := Option.bind_eq_some_iff.mp walked
  have balanced := front walker reached between free found
  cases reached with
  | error fault =>
    cases rest
    exact balanced
  | ok first =>
    exact balanced.trans (back first between outcome after (balanced.nesting_eq ▸ free) rest)

theorem outcome?_look_eq (walker : Walker) :
    (look tokens).outcome? walker =
      tokens[walker.cursor]?.map fun token => (.ok token, walker.note .look) := by
  have state : (get : Walk Walker).outcome? walker = some (.ok walker, walker) := rfl
  unfold look
  rw [outcome?_bind_of_ok state]
  cases tokens[walker.cursor]? <;> rfl

theorem balances_look : Balances limit (look tokens) := by
  intro walker outcome after free walked
  rw [outcome?_look_eq] at walked
  obtain ⟨token, _, same⟩ := Option.map_eq_some_iff.mp walked
  cases same
  exact .step free (by decide) rfl (Nat.le_refl _) rfl

theorem balances_advance : Balances limit (advance tokens) := by
  refine balances_bind balances_look fun token => ?_
  split
  · exact balances_pure token
  · refine balances_bind ?_ fun _ => balances_pure token
    rintro walker _ _ free ⟨⟩
    exact .step free (by decide) rfl (Nat.le_succ _) rfl

theorem balances_operatorAmong (operators : Operator → Bool) :
    Balances limit (operatorAmong tokens operators) := by
  refine balances_bind balances_look fun token => ?_
  split
  · exact balances_pure _
  · exact balances_pure _

theorem balances_refuse (cause : GrammarFault) :
    Balances limit (refuse tokens cause : Walk Result) :=
  balances_bind balances_look fun _ => balances_throw _

theorem balances_pass (kind : TokenKind) (cause : GrammarFault) :
    Balances limit (pass tokens kind cause) := by
  refine balances_bind balances_look fun token => ?_
  split
  · exact balances_bind (balances_refuse cause) fun _ =>
      balances_bind balances_advance fun _ => balances_pure ()
  · exact balances_bind balances_advance fun _ => balances_pure ()

theorem outcome?_enter_of_le {walker : Walker} (full : limit ≤ walker.nesting) :
    (enter limit tokens).outcome? walker =
      tokens[walker.cursor]?.map fun token =>
        (.error (.tooDeep limit token.position), walker.note .look) := by
  have state : (get : Walk Walker).outcome? walker = some (.ok walker, walker) := rfl
  unfold enter
  rw [outcome?_bind_of_ok state, if_pos full, outcome?_bind, outcome?_look_eq]
  cases tokens[walker.cursor]? <;> rfl

/-- A level that is opened is closed again, whatever comes of the walk on it. -/
theorem balances_onLevel {walk : Walk First} (balances : Balances limit walk)
    (finish : Except Fault First → Except Fault Result) :
    Balances limit (onLevel limit tokens walk finish) := by
  intro walker outcome after free walked
  by_cases full : limit ≤ walker.nesting
  · rw [onLevel, outcome?_bind, outcome?_enter_of_le full] at walked
    cases found : tokens[walker.cursor]? with
    | none =>
      rw [found] at walked
      cases walked
    | some token =>
      rw [found] at walked
      cases walked
      exact .step free (by decide) rfl (Nat.le_refl _) rfl
  · have opened : walker.nesting < limit := Nat.lt_of_not_le full
    rw [onLevel, outcome?_bind_of_ok (outcome?_enter opened), outcome?_leaving] at walked
    obtain ⟨⟨reached, inner⟩, found, same⟩ := Option.map_eq_some_iff.mp walked
    cases same
    exact .onLevel opened (balances walker.entered reached inner opened found)

/-- Every rule balances its levels, with however many calls inside each other. -/
theorem rules_balance (limit : Nat) (tokens : List Token) (depth : Nat) :
    (∀ kind, Balances limit (phrase limit tokens kind depth)) ∧
    (∀ joins part left, Balances limit (chainFrom limit tokens joins part depth left)) ∧
    Balances limit (raised limit tokens depth) := by
  induction depth with
  | zero =>
    refine ⟨fun kind => ?_, fun joins part left => ?_, ?_⟩
    · rw [phrase]
      exact balances_stuck
    · rw [chainFrom]
      exact balances_stuck
    · rw [raised]
      exact balances_stuck
  | succ depth inductionHypothesis =>
    obtain ⟨phraseBalances, chainBalances, raisedBalances⟩ := inductionHypothesis
    refine ⟨fun kind => ?_, fun joins part left => ?_, ?_⟩
    · cases kind with
      | sum =>
        rw [phrase]
        exact balances_bind (phraseBalances .product) fun left => chainBalances _ _ left
      | product =>
        rw [phrase]
        exact balances_bind (phraseBalances .power) fun left => chainBalances _ _ left
      | power =>
        rw [phrase_power]
        exact balances_onLevel raisedBalances _
      | operand =>
        rw [phrase]
        refine balances_bind balances_advance fun token => ?_
        split
        · exact balances_numberOf token
        · exact balances_pure _
        · exact balances_onLevel (phraseBalances .operand) _
        · exact balances_bind (phraseBalances .sum) fun _ =>
            balances_bind (balances_pass .closing _) fun _ => balances_pure _
        · exact balances_bind (balances_pass .opening _) fun _ =>
            balances_bind (phraseBalances .sum) fun _ =>
              balances_bind (balances_pass .closing _) fun _ => balances_pure _
        · exact balances_refuse _
        · exact balances_throw _
        · exact balances_throw _
    · rw [chainFrom]
      refine balances_bind (balances_operatorAmong joins) fun operator? => ?_
      cases operator? with
      | none => exact balances_pure left
      | some operator =>
        exact balances_bind balances_advance fun _ =>
          balances_bind (phraseBalances part) fun right => chainBalances joins part _
    · rw [raised]
      refine balances_bind (phraseBalances .operand) fun base =>
        balances_bind (balances_operatorAmong _) fun operator? => ?_
      cases operator? with
      | none => exact balances_pure base
      | some operator =>
        exact balances_bind balances_advance fun _ =>
          balances_bind (phraseBalances .power) fun upper => balances_pure _

end

end Walk

/-! ### The five rules -/

theorem Derivation.length_pos {phrase : Phrase} {tokens : List Token} {expr : Expr}
    {nesting : Nat} (derived : Derivation phrase tokens expr nesting) : 0 < tokens.length := by
  induction derived with
  | base _ inductionHypothesis => exact inductionHypothesis
  | factor _ inductionHypothesis => exact inductionHypothesis
  | term _ inductionHypothesis => exact inductionHypothesis
  | number | constant | negation | group | call => exact Nat.succ_pos _
  | raised | times | plus =>
    rw [List.length_append, List.length_cons]
    exact Nat.succ_pos _

/-- The rules that call each other: one for each kind of phrase, and a power whose level is open. -/
inductive Rule where
  | phrase (kind : Phrase)
  | raised

namespace Rule

/-- The walk of a rule, with so many calls of rules inside each other. -/
def walk (limit : Nat) (tokens : List Token) : Rule → Nat → Walk Expr
  | phrase kind => Walk.phrase limit tokens kind
  | raised => Walk.raised limit tokens

/-- What the program reads by a rule when this many levels may still be opened. -/
def read (limit stop levels : Nat) : Rule → Reader
  | phrase kind => reader limit stop levels kind
  | raised => powerRule (reader limit stop levels .operand) (reader limit stop levels .power)

/-- The operators with which a rule goes on. -/
def goesOn : Rule → Operator → Bool
  | phrase kind => kind.goesOn
  | raised => Phrase.power.goesOn

section

variable {limit stop levels depth more : Nat} {tokens rest : List Token}

theorem walk_balances (rule : Rule) (limit : Nat) (tokens : List Token) (depth : Nat) :
    Balances limit (rule.walk limit tokens depth) := by
  cases rule with
  | phrase kind => exact (Walk.rules_balance limit tokens depth).1 kind
  | raised => exact (Walk.rules_balance limit tokens depth).2.2

theorem walk_extends (rule : Rule) (limit : Nat) (tokens : List Token) (le : depth ≤ more) :
    Walk.Extends (rule.walk limit tokens depth) (rule.walk limit tokens more) := by
  induction le with
  | refl => exact .refl _
  | @step more _ inductionHypothesis =>
    have further :
        Walk.Extends (rule.walk limit tokens more) (rule.walk limit tokens (more + 1)) := by
      cases rule with
      | phrase kind => exact (Walk.extends_succ limit tokens more).1 kind
      | raised => exact (Walk.extends_succ limit tokens more).2.2
    exact fun walker reached walked => further _ _ (inductionHypothesis _ _ walked)

theorem walk_follows (rule : Rule) {nesting : Nat} {stop : Token} {last : Nat}
    (total : nesting + levels = limit) :
    Follows tokens stop last nesting 5 (rule.walk limit tokens)
      (rule.read limit stop.position levels) := by
  intro depth walker rest level here deep
  cases rule with
  | phrase kind =>
    have frames := kind.frames_le
    exact phrase_follows limit tokens stop last kind levels nesting total depth walker rest level
      here (by omega)
  | raised =>
    exact raised_follows (phrase_follows limit tokens stop last .operand levels nesting total)
      (phrase_follows limit tokens stop last .power levels nesting total) depth walker rest level
      here (by omega)

/-- What a rule reads is a phrase, in front of a token with which the rule does not go on. -/
theorem exists_reads (rule : Rule) (limit stop levels : Nat) :
    ∃ kind within, Reads kind within (rule.read limit stop levels) ∧
      kind.goesOn = rule.goesOn := by
  cases rule with
  | phrase kind => exact ⟨kind, levels, reader_reads limit stop levels kind, rfl⟩
  | raised =>
    exact ⟨.power, levels + 1, powerRule_reads (reader_reads limit stop levels .operand)
      (reader_reads limit stop levels .power), rfl⟩

theorem read_takes (rule : Rule) {expr : Expr}
    (found : rule.read limit stop levels tokens = .ok (expr, rest)) :
    rest.length < tokens.length ∧ startsWith rule.goesOn rest = false := by
  obtain ⟨kind, within, reads, same⟩ := rule.exists_reads limit stop levels
  obtain ⟨front, nesting, rfl, derived, _, ended⟩ := reads _ _ _ found
  have some := derived.length_pos
  rw [List.length_append]
  exact ⟨Nat.lt_add_of_pos_left some, same ▸ ended⟩

end

end Rule

/-! ### Runs of a rule -/

section

variable {tokens rest : List Token} {stop : Token} {last cursor : Nat}

theorem EndsInStop.drop (ended : EndsInStop tokens) (inside : cursor < tokens.length) :
    EndsInStop (tokens.drop cursor) := by
  obtain ⟨final, final_eq, ends⟩ := ended
  exact ⟨final, by rw [List.getLast?_drop, if_neg (Nat.not_le_of_lt inside), final_eq], ends⟩

theorem IsAt.of_drop (here : IsAt (tokens.drop cursor) stop last 0 rest) :
    IsAt tokens stop (cursor + last) cursor rest where
  inside := here.inside
  ends := here.ends
  split := here.split
  place := by
    have place := here.place
    omega

/-- The token under the cursor is none of the operators with which the tokens do not start. -/
theorem IsAt.not_isSign {operators : Operator → Bool}
    (here : IsAt tokens stop last cursor rest) (ended : startsWith operators rest = false) :
    ∃ token, tokens[cursor]? = some token ∧ ¬IsSign operators token := by
  refine ⟨rest.headD stop, here.getElem?_eq, ?_⟩
  rintro ⟨operator, kind, member⟩
  cases rest with
  | nil =>
    rw [List.headD_nil, here.kind_eq] at kind
    cases kind
  | cons token behind =>
    rw [List.headD_cons] at kind
    rw [startsWith_cons kind, member] at ended
    cases ended

/-- From any state with the cursor on a token and no more levels open than the limit allows, a rule
comes to an outcome: that of the reader on the tokens up to the next end token, with the levels that
are still closed. However it comes out, its levels are balanced on the way. A rule that finds
something has moved the cursor on, to a token with which it could not have gone on. -/
theorem Rule.walk_balanced (rule : Rule) (limit : Nat) (tokens : List Token) (walker : Walker)
    (ended : EndsInStop tokens) (inside : walker.cursor < tokens.length)
    (free : walker.nesting ≤ limit) :
    ∃ outcome after,
      (∀ depth, 6 * tokens.length ≤ depth →
        (rule.walk limit tokens depth).outcome? walker = some (outcome, after)) ∧
      outcome = (rule.read limit (stopPosition (tokens.drop walker.cursor))
        (limit - walker.nesting) (body (tokens.drop walker.cursor))).map Prod.fst ∧
      Balanced limit walker after ∧
      ∀ expr, outcome = .ok expr → walker.cursor < after.cursor ∧
        ∃ token, tokens[after.cursor]? = some token ∧ ¬IsSign rule.goesOn token := by
  obtain ⟨stop, front, position_eq⟩ := (ended.drop inside).exists_isAt
  have here := front.of_drop
  have deep : 6 * (body (tokens.drop walker.cursor)).length + 5 ≤ 6 * tokens.length := by
    have before := (ended.drop inside).findIdx_lt
    have place := front.place
    rw [List.length_drop] at before
    omega
  have total : walker.nesting + (limit - walker.nesting) = limit := Nat.add_sub_of_le free
  obtain ⟨after, walked, reached⟩ := rule.walk_follows total _ walker _ rfl here deep
  rw [position_eq] at walked reached
  refine ⟨_, after, fun depth enough => rule.walk_extends limit tokens enough _ _ walked, rfl,
    rule.walk_balances limit tokens _ walker _ after free walked, fun expr found => ?_⟩
  cases result : rule.read limit (stopPosition (tokens.drop walker.cursor))
      (limit - walker.nesting) (body (tokens.drop walker.cursor)) with
  | error fault =>
    rw [result] at found
    cases found
  | ok pair =>
    obtain ⟨expr, rest⟩ := pair
    have there := reached.isAt expr rest result
    obtain ⟨shorter, stopped⟩ := rule.read_takes result
    refine ⟨?_, there.not_isSign stopped⟩
    have before := here.place
    have behind := there.place
    omega

/-- Behind an end token, the power of a negated constant, and another end token. -/
def negatedBehindEnd : List Token :=
  [.stop 0, ⟨.operator .subtract, "-", 1⟩, ⟨.constant .pi, "PI", 2⟩, ⟨.operator .raise, "^", 4⟩,
    ⟨.constant .e, "E", 5⟩, .stop 6]

/-- With one level left the power is read, and the level is opened and closed for the negation and
again for the exponent; without it the negation is refused. -/
theorem Rule.walk_balanced_negation :
    EndsInStop negatedBehindEnd ∧
      (∃ after, (Rule.raised.walk 2 negatedBehindEnd 36).outcome? ⟨1, 1, []⟩ =
          some (.ok (.binary .raise (negate (.number Constant.pi.value))
            (.number Constant.e.value)), after) ∧
        Balanced 2 ⟨1, 1, []⟩ after ∧ 1 < after.cursor) ∧
      ∃ after, (Rule.raised.walk 1 negatedBehindEnd 36).outcome? ⟨1, 1, []⟩ =
          some (.error (.tooDeep 1 2), after) ∧ Balanced 1 ⟨1, 1, []⟩ after := by
  have ended : EndsInStop negatedBehindEnd := ⟨.stop 6, rfl, rfl⟩
  obtain ⟨outcome, after, walked, outcome_eq, balanced, takes⟩ :=
    Rule.walk_balanced .raised 2 negatedBehindEnd ⟨1, 1, []⟩ ended (by decide) (by decide)
  obtain ⟨fault, refused, walkedDeep, fault_eq, balancedDeep, _⟩ :=
    Rule.walk_balanced .raised 1 negatedBehindEnd ⟨1, 1, []⟩ ended (by decide) (by decide)
  subst outcome_eq fault_eq
  exact ⟨ended, ⟨after, walked 36 (by decide), balanced, (takes _ rfl).1⟩,
    refused, walkedDeep 36 (by decide), balancedDeep⟩

end

end DeskCalculator.Expr
