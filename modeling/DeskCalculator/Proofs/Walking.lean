/-
This file follows a walk with a cursor from action to action. A walk that comes
to something does not change when it is given more calls. It arrives when it
comes to an outcome with the cursor at the tokens that are left and as many
levels open as before; walks that arrive can be put after each other, and put on
a level of their own. On the way every step stays before the first end token,
and the walk is refused for a misspelled number exactly where it takes one.
-/

import DeskCalculator.Proofs.Cursor
import DeskCalculator.Proofs.Rules

namespace DeskCalculator.Expr

/-! ### Composing walks -/

namespace Walk

variable {First Second Result : Type} {walker between after : Walker}

theorem outcome?_bind (walk : Walk First) (next : First → Walk Second) (walker : Walker) :
    (walk >>= next).outcome? walker = (walk.outcome? walker).bind fun
      | (.ok first, between) => (next first).outcome? between
      | (.error fault, between) => some (.error fault, between) := by
  simp only [outcome?, ExceptT.run_bind, StateT.run_bind]
  cases walk.run.run walker with
  | none => rfl
  | some reached =>
    obtain ⟨outcome, between⟩ := reached
    cases outcome <;> rfl

theorem outcome?_leaving (walk : Walk First)
    (finish : Except Fault First → Except Fault Second) (walker : Walker) :
    outcome? (do
      let outcome ← walk.run
      leave
      return finish outcome : StateT Walker Option (Except Fault Second)) walker =
      (walk.outcome? walker).map fun (outcome, after) => (finish outcome, after.left) := by
  simp only [outcome?, ExceptT.run, StateT.run, bind, StateT.bind]
  cases walk walker <;> rfl

theorem outcome?_bind_of_ok {walk : Walk First} {next : First → Walk Second} {first : First}
    (found : walk.outcome? walker = some (.ok first, between)) :
    (walk >>= next).outcome? walker = (next first).outcome? between := by
  rw [outcome?_bind, found]
  rfl

theorem outcome?_bind_of_error {walk : Walk First} {next : First → Walk Second} {fault : Fault}
    (refused : walk.outcome? walker = some (.error fault, between)) :
    (walk >>= next).outcome? walker = some (.error fault, between) := by
  rw [outcome?_bind, refused]
  rfl

/-- A walk on a level of its own, which is closed again whatever the outcome. -/
def onLevel (limit : Nat) (tokens : List Token) (walk : Walk First)
    (finish : Except Fault First → Except Fault Second) : Walk Second := do
  enter limit tokens
  (do
    let outcome ← walk.run
    leave
    return finish outcome : StateT Walker Option (Except Fault Second))

theorem phrase_power (limit : Nat) (tokens : List Token) (depth : Nat) :
    phrase limit tokens .power (depth + 1) =
      onLevel limit tokens (raised limit tokens depth) (Except.map id) := by
  rw [phrase, Except.map_id]
  rfl

/-! ### More calls -/

/-- The second walk comes to whatever the first one comes to. -/
def Extends (first second : Walk Result) : Prop :=
  ∀ walker reached, first.outcome? walker = some reached → second.outcome? walker = some reached

theorem Extends.refl (walk : Walk Result) : Extends walk walk :=
  fun _ _ => id

theorem stuck_extends (walk : Walk Result) : Extends stuck walk :=
  fun _ _ nothing => nomatch nothing

theorem Extends.bind {first second : Walk First} {next other : First → Walk Second}
    (front : Extends first second) (back : ∀ found, Extends (next found) (other found)) :
    Extends (first >>= next) (second >>= other) := by
  intro walker reached walked
  rw [outcome?_bind] at walked ⊢
  obtain ⟨⟨outcome, between⟩, found, rest⟩ := Option.bind_eq_some_iff.mp walked
  rw [front _ _ found]
  cases outcome with
  | error fault => exact rest
  | ok result => exact back result _ _ rest

theorem Extends.onLevel {first second : Walk First} (extended : Extends first second)
    (limit : Nat) (tokens : List Token) (finish : Except Fault First → Except Fault Second) :
    Extends (onLevel limit tokens first finish) (onLevel limit tokens second finish) := by
  refine (Extends.refl _).bind fun _ walker reached walked => ?_
  rw [outcome?_leaving] at walked ⊢
  obtain ⟨found, same, rest⟩ := Option.map_eq_some_iff.mp walked
  rw [extended _ _ same, ← rest]
  rfl

section

variable (limit : Nat) (tokens : List Token)

/-- One more call changes nothing for a rule that has not run out of calls. -/
theorem extends_succ (depth : Nat) :
    (∀ kind, Extends (phrase limit tokens kind depth) (phrase limit tokens kind (depth + 1))) ∧
    (∀ joins part left, Extends (chainFrom limit tokens joins part depth left)
      (chainFrom limit tokens joins part (depth + 1) left)) ∧
    Extends (raised limit tokens depth) (raised limit tokens (depth + 1)) := by
  induction depth with
  | zero =>
    refine ⟨fun kind => ?_, fun joins part left => ?_, ?_⟩
    · rw [phrase]
      exact stuck_extends _
    · rw [chainFrom]
      exact stuck_extends _
    · rw [raised]
      exact stuck_extends _
  | succ depth inductionHypothesis =>
    obtain ⟨phraseExtends, chainExtends, raisedExtends⟩ := inductionHypothesis
    refine ⟨fun kind => ?_, fun joins part left => ?_, ?_⟩
    · cases kind with
      | sum =>
        rw [phrase, phrase]
        exact (phraseExtends .product).bind fun left => chainExtends _ _ left
      | product =>
        rw [phrase, phrase]
        exact (phraseExtends .power).bind fun left => chainExtends _ _ left
      | power =>
        rw [phrase_power, phrase_power]
        exact raisedExtends.onLevel limit tokens _
      | operand =>
        rw [phrase, phrase]
        refine (Extends.refl _).bind fun token => ?_
        split
        · exact Extends.refl _
        · exact Extends.refl _
        · exact (phraseExtends .operand).onLevel limit tokens _
        · exact (phraseExtends .sum).bind fun _ => Extends.refl _
        · exact (Extends.refl _).bind fun _ =>
            (phraseExtends .sum).bind fun _ => Extends.refl _
        · exact Extends.refl _
        · exact Extends.refl _
        · exact Extends.refl _
    · rw [chainFrom, chainFrom]
      refine (Extends.refl _).bind fun operator? => ?_
      cases operator? with
      | none => exact Extends.refl _
      | some operator =>
        exact (Extends.refl _).bind fun _ =>
          (phraseExtends part).bind fun right => chainExtends joins part _
    · rw [raised, raised]
      refine (phraseExtends .operand).bind fun base => (Extends.refl _).bind fun operator? => ?_
      cases operator? with
      | none => exact Extends.refl _
      | some operator =>
        exact (Extends.refl _).bind fun _ =>
          (phraseExtends .power).bind fun upper => Extends.refl _

theorem whole_extends {depth more : Nat} (le : depth ≤ more) :
    Extends (whole limit tokens depth) (whole limit tokens more) := by
  induction le with
  | refl => exact Extends.refl _
  | @step more _ inductionHypothesis =>
    have further : Extends (whole limit tokens more) (whole limit tokens (more + 1)) :=
      ((extends_succ limit tokens more).1 .sum).bind fun _ => Extends.refl _
    exact fun walker reached walked => further _ _ (inductionHypothesis _ _ walked)

end

end Walk

/-- A walk that comes to something does not depend on how many calls it is given. -/
theorem walkTokens_of_le {depth more requested : Nat} {tokens : List Token}
    {reached : Except Fault Expr × List Step} (le : depth ≤ more)
    (walked : walkTokens depth requested tokens = some reached) :
    walkTokens more requested tokens = some reached := by
  unfold walkTokens at *
  split
  · rename_i empty
    rw [empty] at walked
    exact walked
  · rename_i final final_eq
    simp only [final_eq] at walked
    split
    · rename_i ends
      rw [if_pos ends] at walked
      obtain ⟨found, whole_eq, same⟩ := Option.map_eq_some_iff.mp walked
      rw [Walk.whole_extends _ _ le _ _ whole_eq, ← same]
      rfl
    · rename_i other
      rw [if_neg other] at walked
      exact walked

/-! ### Places -/

section

variable {tokens rest : List Token} {stop token : Token} {last cursor : Nat}

/-- From the cursor on the tokens are these, up to the end token at the index `last`. -/
structure IsAt (tokens : List Token) (stop : Token) (last cursor : Nat) (rest : List Token) :
    Prop where
  inside : ∀ word ∈ rest, word.isStop = false
  ends : stop.isStop = true
  split : ∃ behind, tokens.drop cursor = rest ++ stop :: behind
  place : cursor + rest.length = last

theorem IsAt.cursor_le (here : IsAt tokens stop last cursor rest) : cursor ≤ last :=
  Nat.le_of_add_right_le (Nat.le_of_eq here.place)

theorem IsAt.getElem?_eq (here : IsAt tokens stop last cursor rest) :
    tokens[cursor]? = some (rest.headD stop) := by
  obtain ⟨behind, split⟩ := here.split
  rw [← List.head?_drop, split]
  cases rest <;> rfl

theorem IsAt.next (here : IsAt tokens stop last cursor (token :: rest)) :
    IsAt tokens stop last (cursor + 1) rest where
  inside word member := here.inside word (.tail _ member)
  ends := here.ends
  split := by
    obtain ⟨behind, split⟩ := here.split
    refine ⟨behind, ?_⟩
    rw [← List.tail_drop, split]
    rfl
  place := by
    rw [← here.place, List.length_cons]
    omega

theorem IsAt.kind_eq (here : IsAt tokens stop last cursor []) : stop.kind = .stop :=
  of_decide_eq_true here.ends

theorem IsAt.kind_ne (here : IsAt tokens stop last cursor (token :: rest)) : token.kind ≠ .stop :=
  of_decide_eq_false (here.inside token (.head _))

theorem nextPosition_eq (stop : Token) (rest : List Token) :
    nextPosition stop.position rest = (rest.headD stop).position := by
  cases rest <;> rfl

end

/-! ### Steps -/

section

variable {Result Other : Type} {tokens : List Token} {last : Nat}

/-- The step stays before the end, and where it takes a number that is not spelled as one, this is
what the walk is refused for. -/
structure Step.Fits (tokens : List Token) (last : Nat) (outcome : Except Fault Result)
    (step : Step) : Prop where
  inside : step.cursor ≤ last
  takes : step.action = .advance → ∀ token fault, tokens[step.cursor]? = some token →
    token.kind = .number → numberOf token = .error fault → outcome = .error fault

theorem Step.fits_of_ne_advance {step : Step} (inside : step.cursor ≤ last)
    (other : step.action ≠ .advance) (outcome : Except Fault Result) :
    step.Fits tokens last outcome :=
  ⟨inside, fun same => absurd same other⟩

/-- Only the fault of an outcome matters to a step. -/
theorem Step.Fits.imp {step : Step} {outcome : Except Fault Result} {other : Except Fault Other}
    (fits : step.Fits tokens last outcome)
    (same : ∀ fault, outcome = .error fault → other = .error fault) :
    step.Fits tokens last other :=
  ⟨fits.inside, fun action token fault found kind misspelled =>
    same fault (fits.takes action token fault found kind misspelled)⟩

/-- From one state to the other the walk has made steps that fit. -/
def Passes (tokens : List Token) (last : Nat) (outcome : Except Fault Result)
    (walker after : Walker) : Prop :=
  ∃ steps, after.steps = steps ++ walker.steps ∧ ∀ step ∈ steps, step.Fits tokens last outcome

theorem Passes.refl (outcome : Except Fault Result) (walker : Walker) :
    Passes tokens last outcome walker walker :=
  ⟨[], rfl, List.forall_mem_nil _⟩

theorem Passes.note {outcome : Except Fault Result} {walker : Walker} {action : Action}
    (fits : Step.Fits tokens last outcome ⟨action, walker.cursor, walker.nesting⟩) :
    Passes tokens last outcome walker (walker.note action) :=
  ⟨[_], rfl, List.forall_mem_singleton.mpr fits⟩

theorem Passes.trans {outcome : Except Fault Result} {walker between after : Walker}
    (first : Passes tokens last outcome walker between)
    (second : Passes tokens last outcome between after) :
    Passes tokens last outcome walker after := by
  obtain ⟨firstSteps, first_eq, firstFit⟩ := first
  obtain ⟨secondSteps, second_eq, secondFit⟩ := second
  refine ⟨secondSteps ++ firstSteps, ?_, List.forall_mem_append.mpr ⟨secondFit, firstFit⟩⟩
  rw [second_eq, first_eq, List.append_assoc]

theorem Passes.imp {outcome : Except Fault Result} {other : Except Fault Other}
    {walker after : Walker} (passes : Passes tokens last outcome walker after)
    (same : ∀ fault, outcome = .error fault → other = .error fault) :
    Passes tokens last other walker after := by
  obtain ⟨steps, steps_eq, fit⟩ := passes
  exact ⟨steps, steps_eq, fun step member => (fit step member).imp same⟩

end

/-! ### Arrivals -/

section

variable {First Second Result : Type} {tokens rest : List Token} {stop token : Token} {last : Nat}
  {walker after : Walker}

/-- A fault about a numeral comes from a misspelled number that one of the steps has taken. -/
def IsCaused (tokens : List Token) (steps : List Step) : Fault → Prop
  | .grammar (.badNumeral text) position => Numeral.read? text = none ∧
    ∃ step ∈ steps, step.action = .advance ∧
      tokens[step.cursor]? = some ⟨.number, text, position⟩
  | _ => True

theorem IsCaused.cons {tokens : List Token} {steps : List Step} {fault : Fault}
    (caused : IsCaused tokens steps fault) (step : Step) :
    IsCaused tokens (step :: steps) fault := by
  unfold IsCaused at *
  split
  · obtain ⟨unread, taken, member, taken_eq⟩ := caused
    exact ⟨unread, taken, .tail _ member, taken_eq⟩
  · trivial

/-- Between the two states the walk has passed over what its outcome says it has read, on the level
on which it started. -/
structure Reaches (tokens : List Token) (stop : Token) (last : Nat)
    (outcome : Except Fault (Result × List Token)) (walker after : Walker) : Prop where
  nesting_eq : after.nesting = walker.nesting
  inside : after.cursor ≤ last
  passes : Passes tokens last outcome walker after
  caused : ∀ fault, outcome = .error fault → IsCaused tokens after.steps fault
  isAt : ∀ result rest, outcome = .ok (result, rest) → IsAt tokens stop last after.cursor rest

/-- From this state on the walk comes to this outcome, with the tokens that are left after it. -/
def Arrives (tokens : List Token) (stop : Token) (last : Nat) (walk : Walk Result)
    (walker : Walker) (outcome : Except Fault (Result × List Token)) : Prop :=
  ∃ after, walk.outcome? walker = some (outcome.map Prod.fst, after) ∧
    Reaches tokens stop last outcome walker after

theorem Reaches.trans {first : First} {outcome : Except Fault (Result × List Token)}
    {between : Walker} (front : Reaches tokens stop last (.ok (first, rest)) walker between)
    (back : Reaches tokens stop last outcome between after) :
    Reaches tokens stop last outcome walker after where
  nesting_eq := back.nesting_eq.trans front.nesting_eq
  inside := back.inside
  passes := (front.passes.imp fun _ same => nomatch same).trans back.passes
  caused := back.caused
  isAt := back.isAt

theorem Reaches.of_error {fault : Fault}
    (reaches : Reaches tokens stop last (.error fault : Except Fault (First × List Token)) walker
      after) :
    Reaches tokens stop last (.error fault : Except Fault (Second × List Token)) walker after where
  nesting_eq := reaches.nesting_eq
  inside := reaches.inside
  passes := reaches.passes.imp fun _ same => by cases same; rfl
  caused := by
    rintro _ ⟨⟩
    exact reaches.caused fault rfl
  isAt _ _ same := nomatch same

theorem arrives_pure (here : IsAt tokens stop last walker.cursor rest) (result : Result) :
    Arrives tokens stop last (pure result) walker (.ok (result, rest)) := by
  refine ⟨walker, rfl, rfl, here.cursor_le, .refl _ _, (fun _ same => nomatch same), ?_⟩
  rintro _ _ ⟨⟩
  exact here

theorem arrives_throw {fault : Fault} (here : IsAt tokens stop last walker.cursor rest)
    (caused : IsCaused tokens walker.steps fault) :
    Arrives tokens stop last (throw fault : Walk Result) walker (.error fault) := by
  refine ⟨walker, rfl, rfl, here.cursor_le, .refl _ _, ?_, fun _ _ same => nomatch same⟩
  rintro _ ⟨⟩
  exact caused

/-- A walk that finds something goes on from where it has arrived. -/
theorem Arrives.bind {walk : Walk First} {next : First → Walk Result} {first : First}
    {outcome : Except Fault (Result × List Token)}
    (found : Arrives tokens stop last walk walker (.ok (first, rest)))
    (goesOn : ∀ between : Walker, between.nesting = walker.nesting →
      IsAt tokens stop last between.cursor rest →
      Arrives tokens stop last (next first) between outcome) :
    Arrives tokens stop last (walk >>= next) walker outcome := by
  obtain ⟨between, walked, reached⟩ := found
  obtain ⟨after, wentOn, end_⟩ :=
    goesOn between reached.nesting_eq (reached.isAt first rest rfl)
  refine ⟨after, ?_, reached.trans end_⟩
  rw [Walk.outcome?_bind_of_ok walked]
  exact wentOn

/-- A walk that is refused does not go on. -/
theorem Arrives.bind_of_error {walk : Walk First} {next : First → Walk Result} {fault : Fault}
    (refused : Arrives tokens stop last walk walker (.error fault)) :
    Arrives tokens stop last (walk >>= next) walker (.error fault) := by
  obtain ⟨after, walked, reached⟩ := refused
  exact ⟨after, Walk.outcome?_bind_of_error walked, reached.of_error⟩

/-- A walk whose result is only wrapped arrives where the walk does. -/
theorem Arrives.map {walk : Walk First} {outcome : Except Fault (First × List Token)}
    (arrives : Arrives tokens stop last walk walker outcome) (finish : First → Second) :
    Arrives tokens stop last (do return finish (← walk)) walker
      (outcome.map fun found => (finish found.1, found.2)) := by
  cases outcome with
  | error fault => exact arrives.bind_of_error
  | ok found => exact arrives.bind fun between _ here => arrives_pure here (finish found.1)

theorem map_eq_error_iff {outcome : Except Fault First} {finish : First → Second}
    {fault : Fault} : outcome.map finish = .error fault ↔ outcome = .error fault := by
  cases outcome with
  | error other => simp [Except.map]
  | ok found => simp [Except.map]

theorem map_id_found (outcome : Except Fault (Result × List Token)) :
    (outcome.map fun found => (id found.1, found.2)) = outcome := by
  cases outcome <;> rfl

/-! ### Single steps -/

namespace Walk

theorem outcome?_look (here : IsAt tokens stop last walker.cursor rest) :
    (look tokens).outcome? walker = some (.ok (rest.headD stop), walker.note .look) := by
  have state : (get : Walk Walker).outcome? walker = some (.ok walker, walker) := rfl
  have found : (liftM (some (rest.headD stop)) : Walk Token).outcome? walker =
      some (.ok (rest.headD stop), walker) := rfl
  unfold look
  rw [outcome?_bind_of_ok state, here.getElem?_eq, outcome?_bind_of_ok found]
  rfl

theorem outcome?_advance (here : IsAt tokens stop last walker.cursor (token :: rest)) :
    (advance tokens).outcome? walker = some (.ok token, (walker.note .look).advanced) := by
  unfold advance
  rw [outcome?_bind_of_ok (outcome?_look here), List.headD_cons, if_neg]
  · rfl
  · rw [here.inside token (.head _)]
    exact Bool.false_ne_true

theorem look_arrives (here : IsAt tokens stop last walker.cursor rest) :
    Arrives tokens stop last (look tokens) walker (.ok (rest.headD stop, rest)) := by
  refine ⟨_, outcome?_look here, rfl, here.cursor_le, .note ?_, (fun _ same => nomatch same), ?_⟩
  · exact Step.fits_of_ne_advance here.cursor_le Action.noConfusion _
  · rintro _ _ ⟨⟩
    exact here

theorem passes_advanced {outcome : Except Fault Result}
    (here : IsAt tokens stop last walker.cursor (token :: rest))
    (takes : ∀ fault, token.kind = .number → numberOf token = .error fault →
      outcome = .error fault) :
    Passes tokens last outcome walker (walker.note .look).advanced := by
  refine ⟨[⟨.advance, walker.cursor, walker.nesting⟩, ⟨.look, walker.cursor, walker.nesting⟩], rfl,
    List.forall_mem_cons.mpr ⟨⟨here.cursor_le, ?_⟩, List.forall_mem_singleton.mpr ?_⟩⟩
  · intro _ other fault found kind misspelled
    rw [here.getElem?_eq] at found
    cases found
    exact takes fault kind misspelled
  · exact Step.fits_of_ne_advance here.cursor_le Action.noConfusion _

/-- The cursor stays on an end token. -/
theorem advance_arrives_of_stop (here : IsAt tokens stop last walker.cursor []) :
    Arrives tokens stop last (advance tokens) walker (.ok (stop, [])) := by
  refine (look_arrives here).bind fun between _ here => ?_
  rw [List.headD_nil, if_pos here.ends]
  exact arrives_pure here stop

theorem advance_arrives (here : IsAt tokens stop last walker.cursor (token :: rest))
    (other : token.kind ≠ .number) :
    Arrives tokens stop last (advance tokens) walker (.ok (token, rest)) := by
  refine ⟨_, outcome?_advance here, rfl, here.next.cursor_le, passes_advanced here ?_,
    (fun _ same => nomatch same), ?_⟩
  · intro _ number
    exact absurd number other
  · rintro _ _ ⟨⟩
    exact here.next

/-- A walk goes on after any token, when it is refused for the ones that are misspelled. -/
theorem advance_bind_arrives {next : Token → Walk Result}
    {outcome : Except Fault (Result × List Token)}
    (here : IsAt tokens stop last walker.cursor (token :: rest))
    (takes : ∀ fault, token.kind = .number → numberOf token = .error fault →
      outcome = .error fault)
    (goesOn : Arrives tokens stop last (next token) (walker.note .look).advanced outcome) :
    Arrives tokens stop last (advance tokens >>= next) walker outcome := by
  obtain ⟨after, wentOn, reached⟩ := goesOn
  refine ⟨after, ?_, reached.nesting_eq, reached.inside, ?_, reached.caused, reached.isAt⟩
  · rw [outcome?_bind_of_ok (outcome?_advance here)]
    exact wentOn
  · exact (passes_advanced here takes).trans reached.passes

theorem operatorAmong_arrives_none {operators : Operator → Bool}
    (here : IsAt tokens stop last walker.cursor rest)
    (unjoined : startsWith operators rest = false) :
    Arrives tokens stop last (operatorAmong tokens operators) walker (.ok (none, rest)) := by
  refine (look_arrives here).bind fun between _ here => ?_
  cases rest with
  | nil =>
    rw [List.headD_nil, here.kind_eq]
    exact arrives_pure here none
  | cons token behind =>
    rw [List.headD_cons]
    split
    · rename_i operator kind
      rw [startsWith_cons kind] at unjoined
      rw [unjoined]
      exact arrives_pure here none
    · exact arrives_pure here none

theorem operatorAmong_arrives_some {operators : Operator → Bool} {operator : Operator}
    (here : IsAt tokens stop last walker.cursor (token :: rest))
    (kind : token.kind = .operator operator) (member : operators operator = true) :
    Arrives tokens stop last (operatorAmong tokens operators) walker
      (.ok (some operator, token :: rest)) := by
  refine (look_arrives here).bind fun between _ here => ?_
  simp only [List.headD_cons, kind, member, if_true]
  exact arrives_pure here (some operator)

theorem refuse_arrives {cause : GrammarFault} (here : IsAt tokens stop last walker.cursor rest)
    (caused : ∀ steps position, IsCaused tokens steps (.grammar cause position)) :
    Arrives tokens stop last (refuse tokens cause : Walk Result) walker
      (.error (.grammar cause (nextPosition stop.position rest))) := by
  refine (look_arrives here).bind fun between _ here => ?_
  rw [nextPosition_eq]
  exact arrives_throw here (caused _ _)

theorem pass_arrives (kind : TokenKind) (cause : GrammarFault)
    (here : IsAt tokens stop last walker.cursor rest) (notStop : kind ≠ .stop)
    (notNumber : kind ≠ .number)
    (caused : ∀ steps position, IsCaused tokens steps (.grammar cause position)) :
    Arrives tokens stop last (pass tokens kind cause) walker
      ((expect stop.position kind cause rest).map fun rest => ((), rest)) := by
  refine (look_arrives here).bind fun between _ here => ?_
  cases rest with
  | nil =>
    have other : stop.kind ≠ kind := by
      rw [here.kind_eq]
      exact notStop.symm
    rw [List.headD_nil, if_pos other]
    exact (refuse_arrives here caused).bind_of_error
  | cons token behind =>
    rw [List.headD_cons]
    by_cases same : token.kind = kind
    · rw [if_neg (not_not_intro same), expect_cons same]
      have other : token.kind ≠ .number := by
        rw [same]
        exact notNumber
      exact (advance_arrives here other).bind fun between _ here => arrives_pure here ()
    · rw [if_pos same]
      have refused : expect stop.position kind cause (token :: behind) =
          .error (.grammar cause (nextPosition stop.position (token :: behind))) := by
        simp only [expect, same, if_false, nextPosition]
      rw [refused]
      exact (refuse_arrives here caused).bind_of_error

theorem enter_arrives_of_le {limit : Nat} (here : IsAt tokens stop last walker.cursor rest)
    (full : limit ≤ walker.nesting) :
    Arrives tokens stop last (enter limit tokens) walker
      (.error (.tooDeep limit (nextPosition stop.position rest))) := by
  have state : Arrives tokens stop last (get : Walk Walker) walker (.ok (walker, rest)) :=
    arrives_pure here walker
  refine state.bind fun between _ here => ?_
  rw [if_pos full, nextPosition_eq]
  refine (look_arrives here).bind fun between _ here => ?_
  refine (arrives_throw here ?_).bind_of_error
  exact trivial

theorem outcome?_enter {limit : Nat} (free : walker.nesting < limit) :
    (enter limit tokens).outcome? walker = some (.ok (), walker.entered) := by
  have state : (get : Walk Walker).outcome? walker = some (.ok walker, walker) := rfl
  unfold enter
  rw [outcome?_bind_of_ok state, if_neg (Nat.not_le_of_lt free)]
  rfl

theorem onLevel_arrives_of_le {limit : Nat} {walk : Walk First}
    (here : IsAt tokens stop last walker.cursor rest) (full : limit ≤ walker.nesting)
    (finish : Except Fault First → Except Fault Second) :
    Arrives tokens stop last (onLevel limit tokens walk finish) walker
      (.error (.tooDeep limit (nextPosition stop.position rest))) :=
  (enter_arrives_of_le here full).bind_of_error

/-- A walk on a level of its own arrives where the walk arrives from a level further on. -/
theorem onLevel_arrives {limit : Nat} {walk : Walk First}
    {outcome : Except Fault (First × List Token)}
    (here : IsAt tokens stop last walker.cursor rest) (free : walker.nesting < limit)
    (arrives : ∀ inner : Walker, inner.nesting = walker.nesting + 1 →
      IsAt tokens stop last inner.cursor rest → Arrives tokens stop last walk inner outcome)
    (finish : First → Second) :
    Arrives tokens stop last (onLevel limit tokens walk (Except.map finish)) walker
      (outcome.map fun found => (finish found.1, found.2)) := by
  obtain ⟨after, walked, reached⟩ := arrives walker.entered rfl here
  refine ⟨after.left, ?_, ?_, reached.inside, ?_, ?_, ?_⟩
  · rw [onLevel, outcome?_bind_of_ok (outcome?_enter free)]
    rw [outcome?_leaving, walked]
    cases outcome <;> rfl
  · show after.nesting - 1 = walker.nesting
    rw [reached.nesting_eq]
    rfl
  · have entered : Passes tokens last outcome walker walker.entered :=
      .note (Step.fits_of_ne_advance here.cursor_le Action.noConfusion _)
    have left : Passes tokens last outcome after after.left :=
      .note (Step.fits_of_ne_advance reached.inside Action.noConfusion _)
    exact ((entered.trans reached.passes).trans left).imp fun _ => map_eq_error_iff.mpr
  · exact fun fault same => (reached.caused fault (map_eq_error_iff.mp same)).cons _
  · intro result remaining same
    cases outcome with
    | error fault => cases same
    | ok found =>
      cases same
      exact reached.isAt found.1 found.2 rfl

end Walk

end

end DeskCalculator.Expr
