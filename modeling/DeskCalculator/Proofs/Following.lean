/-
This file proves that a walk with a cursor reads what the reader reads. The
reader counts the levels that may still be opened and hands on the tokens that
are left; the walk counts the levels that are open and moves a cursor over the
whole list. Where the two counts make up the limit, every rule of the walk
arrives where the reader does. No more than six rules call each other before a
token is taken, so a walk comes to an end on every list of tokens; and it never
looks behind the first end token.
-/

import DeskCalculator.Proofs.Reading
import DeskCalculator.Proofs.Walking
import Mathlib.Data.List.TakeWhile

namespace DeskCalculator.Expr

/-! ### Depth -/

/-- The calls that a rule makes inside each other before it takes a token. -/
def Phrase.frames : Phrase → Nat
  | sum => 5
  | product => 4
  | power => 3
  | operand => 1

theorem Phrase.frames_le (phrase : Phrase) : phrase.frames ≤ 5 := by
  cases phrase <;> decide

/-! ### Rules -/

section

variable {limit nesting levels depth frames : Nat} {tokens rest : List Token} {stop : Token}
  {last : Nat} {walker : Walker}

/-- Wherever so many levels are open, the walk comes to what the reader reads. Six calls for every
token that is left, and so many frames more, are enough. -/
def Follows (tokens : List Token) (stop : Token) (last nesting frames : Nat)
    (walk : Nat → Walk Expr) (read : Reader) : Prop :=
  ∀ (depth : Nat) (walker : Walker) (rest : List Token), walker.nesting = nesting →
    IsAt tokens stop last walker.cursor rest → 6 * rest.length + frames ≤ depth →
    Arrives tokens stop last (walk depth) walker (read rest)

/-- The rule of a phrase comes to what the reader reads with these levels. -/
def PhraseFollows (limit : Nat) (tokens : List Token) (stop : Token) (last nesting levels : Nat)
    (phrase : Phrase) : Prop :=
  Follows tokens stop last nesting phrase.frames (Walk.phrase limit tokens phrase)
    (reader limit stop.position levels phrase)

/-- After a walk that follows a reader, it goes on where the reader has read something. -/
theorem Follows.bind {Result : Type} {walk : Nat → Walk Expr} {read : Reader}
    {next : Expr → Walk Result} {outcome : Except Fault (Result × List Token)}
    (follows : Follows tokens stop last nesting frames walk read) (level : walker.nesting = nesting)
    (here : IsAt tokens stop last walker.cursor rest) (deep : 6 * rest.length + frames ≤ depth)
    (refused : ∀ fault, read rest = .error fault → outcome = .error fault)
    (found : ∀ expr behind, read rest = .ok (expr, behind) → ∀ between : Walker,
      between.nesting = nesting → IsAt tokens stop last between.cursor behind →
      Arrives tokens stop last (next expr) between outcome) :
    Arrives tokens stop last (walk depth >>= next) walker outcome := by
  have arrives := follows depth walker rest level here deep
  cases result : read rest with
  | error fault =>
    rw [result] at arrives
    rw [refused fault result]
    exact arrives.bind_of_error
  | ok pair =>
    obtain ⟨expr, behind⟩ := pair
    rw [result] at arrives
    exact arrives.bind fun between same here =>
      found expr behind result between (same.trans level) here

/-- A chain goes on as the reader of the chain does, whose bound is never reached. -/
theorem chainFrom_arrives {part : Phrase} {joins : Operator → Bool}
    (follows : PhraseFollows limit tokens stop last nesting levels part)
    (bound : List Token) (left : Expr) (level : walker.nesting = nesting)
    (here : IsAt tokens stop last walker.cursor rest) (bounded : rest.length ≤ bound.length)
    (deep : 6 * rest.length < depth) :
    Arrives tokens stop last (Walk.chainFrom limit tokens joins part depth left) walker
      (chainFrom joins (reader limit stop.position levels part) bound left rest) := by
  -- Every further operand takes its operator first, so bound, tokens and depth shrink together.
  induction bound generalizing left walker rest depth with
  | nil =>
    obtain rfl : rest = [] := List.length_eq_zero_iff.mp (Nat.le_zero.mp bounded)
    obtain ⟨depth, rfl⟩ := Nat.exists_eq_add_one_of_ne_zero (Nat.ne_zero_of_lt deep)
    rw [Walk.chainFrom]
    exact (Walk.operatorAmong_arrives_none here rfl).bind fun _ _ here => arrives_pure here left
  | cons next bound inductionHypothesis =>
    obtain ⟨depth, rfl⟩ := Nat.exists_eq_add_one_of_ne_zero (Nat.ne_zero_of_lt deep)
    rw [Walk.chainFrom]
    cases joined : startsWith joins rest with
    | false =>
      rw [chainFrom_of_startsWith_eq_false joined]
      exact (Walk.operatorAmong_arrives_none here joined).bind fun _ _ here =>
        arrives_pure here left
    | true =>
      obtain ⟨sign, operator, behind, rfl, kind, member⟩ := startsWith_eq_true_iff.mp joined
      rw [List.length_cons] at bounded deep
      have frames := part.frames_le
      refine (Walk.operatorAmong_arrives_some here kind member).bind fun atSign same here => ?_
      refine (Walk.advance_arrives here (by simp [kind])).bind fun behindSign alike here => ?_
      refine follows.bind ((alike.trans same).trans level) here (by omega) ?_ ?_
      · intro fault refused
        exact chainFrom_cons_of_error kind member refused
      · intro right after read between level here
        rw [chainFrom_cons_of_ok kind member read]
        have shrunk := reader_shrinks read
        exact inductionHypothesis (.binary operator left right) level here
          (Nat.le_trans shrunk (Nat.le_of_succ_le_succ bounded)) (by omega)

theorem chain_follows {whole part : Phrase} {joins : Operator → Bool}
    (rule : IsChainRule whole part joins) (frames_eq : whole.frames = part.frames + 1)
    (positive : 0 < part.frames)
    (phrase_eq : ∀ depth, Walk.phrase limit tokens whole (depth + 1) =
      Walk.phrase limit tokens part depth >>= Walk.chainFrom limit tokens joins part depth)
    (follows : PhraseFollows limit tokens stop last nesting levels part) :
    PhraseFollows limit tokens stop last nesting levels whole := by
  intro depth walker rest level here deep
  obtain ⟨depth, rfl⟩ := Nat.exists_eq_add_one_of_ne_zero (show depth ≠ 0 by omega)
  rw [phrase_eq, rule.reader_eq]
  refine follows.bind level here (by omega) (fun fault => chain_of_error) ?_
  intro left behind read between level here
  have shrunk := reader_shrinks read
  simp only [chain, read]
  exact chainFrom_arrives follows behind left level here (Nat.le_refl _) (by omega)

theorem raised_follows
    (operandFollows : PhraseFollows limit tokens stop last nesting levels .operand)
    (powerFollows : PhraseFollows limit tokens stop last nesting levels .power) :
    Follows tokens stop last nesting 2 (Walk.raised limit tokens)
      (reader limit stop.position (levels + 1) .power) := by
  intro depth walker rest level here deep
  obtain ⟨depth, rfl⟩ := Nat.exists_eq_add_one_of_ne_zero (show depth ≠ 0 by omega)
  rw [Walk.raised, reader_power_succ]
  refine operandFollows.bind level here (Nat.le_of_succ_le_succ deep)
    (fun fault => powerRule_of_error) ?_
  intro base behind read between level here
  cases raised : startsWith Phrase.power.goesOn behind with
  | false =>
    rw [powerRule_of_ended read raised]
    exact (Walk.operatorAmong_arrives_none here raised).bind fun _ _ here => arrives_pure here base
  | true =>
    obtain ⟨sign, operator, after, rfl, kind, member⟩ := startsWith_eq_true_iff.mp raised
    have raises : sign.kind = .operator .raise := by rw [kind, of_decide_eq_true member]
    have shrunk := reader_shrinks read
    rw [List.length_cons] at shrunk
    rw [powerRule_of_raised raises read]
    refine (Walk.operatorAmong_arrives_some here kind member).bind fun atSign same here => ?_
    refine (Walk.advance_arrives here (by simp [kind])).bind fun behindSign alike here => ?_
    have enough : 6 * after.length + Phrase.power.frames ≤ depth := by
      show 6 * after.length + 3 ≤ depth
      omega
    exact (powerFollows depth behindSign after ((alike.trans same).trans level) here enough).map
      (Expr.binary .raise base)

/-- A parenthesised part is read up to its closing parenthesis. -/
theorem enclosed_arrives {cause : GrammarFault} (finish : Expr → Expr)
    (caused : ∀ steps position, IsCaused tokens steps (.grammar cause position))
    (follows : PhraseFollows limit tokens stop last nesting levels .sum)
    (level : walker.nesting = nesting) (here : IsAt tokens stop last walker.cursor rest)
    (deep : 6 * rest.length + 5 ≤ depth) :
    Arrives tokens stop last (do
      let inner ← Walk.phrase limit tokens .sum depth
      Walk.pass tokens .closing cause
      return finish inner) walker
      ((enclosed stop.position (reader limit stop.position levels .sum) cause rest).map
        fun found => (finish found.1, found.2)) := by
  refine follows.bind level here deep ?_ ?_
  · intro fault refused
    rw [enclosed_of_error refused]
    rfl
  · intro inner behind read between level here
    have passes :=
      Walk.pass_arrives .closing cause here TokenKind.noConfusion TokenKind.noConfusion caused
    cases passed : expect stop.position .closing cause behind with
    | error fault =>
      rw [enclosed_of_expect_error read passed]
      rw [passed] at passes
      exact passes.bind_of_error
    | ok after =>
      obtain ⟨closing, closes, rfl⟩ := expect_eq_ok passed
      rw [enclosed_of_ok closes read]
      rw [passed] at passes
      exact passes.bind fun _ _ here => arrives_pure here (finish inner)

/-- A walk on a level of its own follows what is read with one level less. -/
theorem onLevel_follows {walk : Nat → Walk Expr} {read : Reader} (finish : Expr → Expr)
    (free : nesting < limit)
    (follows : Follows tokens stop last (nesting + 1) frames walk read) :
    Follows tokens stop last nesting frames
      (fun depth => Walk.onLevel limit tokens (walk depth) (Except.map finish))
      fun tokens => (read tokens).map fun found => (finish found.1, found.2) := by
  intro depth walker rest level here deep
  exact Walk.onLevel_arrives here (level ▸ free)
    (fun inner deeper here => follows depth inner rest (by rw [deeper, level]) here deep) finish

/-- Where all levels are open, what needs one more is refused. -/
theorem onLevel_follows_of_le {walk : Nat → Walk Expr} (finish : Expr → Expr)
    (full : limit ≤ nesting) :
    Follows tokens stop last nesting frames
      (fun depth => Walk.onLevel limit tokens (walk depth) (Except.map finish))
      fun tokens => (refuseLevel limit stop.position tokens).map
        fun found => (finish found.1, found.2) := by
  intro depth walker rest level here deep
  exact Walk.onLevel_arrives_of_le here (level ▸ full) _

/-- A power follows what its parts do on a level of their own. -/
theorem power_follows {read : Reader}
    (follows : Follows tokens stop last nesting 2
      (fun depth => Walk.onLevel limit tokens (Walk.raised limit tokens depth) (Except.map id))
      fun tokens => (read tokens).map fun found => (id found.1, found.2)) :
    Follows tokens stop last nesting 3 (Walk.phrase limit tokens .power) read := by
  intro depth walker rest level here deep
  obtain ⟨depth, rfl⟩ := Nat.exists_eq_add_one_of_ne_zero (show depth ≠ 0 by omega)
  rw [Walk.phrase_power, ← map_id_found (read rest)]
  exact follows depth walker rest level here (Nat.le_of_succ_le_succ deep)

/-- A misspelled number is the cause of its fault once it has been taken. -/
theorem isCaused_of_numberOf {token : Token} {fault : Fault}
    (here : IsAt tokens stop last walker.cursor (token :: rest)) (kind : token.kind = .number)
    (misspelled : numberOf token = .error fault) :
    IsCaused tokens (walker.note .look).advanced.steps fault := by
  unfold numberOf at misspelled
  split at misspelled
  · cases misspelled
  · rename_i unread
    cases misspelled
    refine ⟨unread, _, .head _, rfl, ?_⟩
    show tokens[walker.cursor]? = _
    rw [here.getElem?_eq, List.headD_cons, ← kind]

theorem operand_follows
    (sumFollows : PhraseFollows limit tokens stop last nesting levels .sum)
    (negatedFollows : Follows tokens stop last nesting 1
      (fun depth => Walk.onLevel limit tokens (Walk.phrase limit tokens .operand depth)
        (Except.map negate))
      fun tokens => (negatedReader limit stop.position levels tokens).map
        fun found => (found.1.negate, found.2)) :
    PhraseFollows limit tokens stop last nesting levels .operand := by
  intro depth walker rest level here deep
  obtain ⟨depth, rfl⟩ := Nat.exists_eq_add_one_of_ne_zero (Nat.ne_zero_of_lt deep)
  rw [Walk.phrase, reader_operand]
  cases rest with
  | nil =>
    refine (Walk.advance_arrives_of_stop here).bind fun between _ here => ?_
    simp only [here.kind_eq]
    exact Walk.refuse_arrives here fun _ _ => trivial
  | cons token behind =>
    have isWord := here.kind_ne
    have enough : 6 * behind.length + 6 ≤ depth := Nat.le_of_succ_le_succ deep
    dsimp only [operandRule]
    by_cases number : token.kind = .number
    · refine Walk.advance_bind_arrives here ?_ ?_
      · intro fault _ misspelled
        simp only [number, misspelled]
        rfl
      · simp only [number]
        cases spelled : numberOf token with
        | error fault => exact arrives_throw here.next (isCaused_of_numberOf here number spelled)
        | ok expr => exact arrives_pure here.next expr
    refine (Walk.advance_arrives here number).bind fun between same here => ?_
    have between_level : between.nesting = nesting := same.trans level
    cases kind : token.kind with
    | number => exact absurd kind number
    | constant constant => exact arrives_pure here _
    | operator operator =>
      cases operator with
      | subtract => exact negatedFollows depth between behind between_level here (by omega)
      | _ => exact arrives_throw here trivial
    | opening =>
      rw [← map_id_found (enclosed _ _ _ _)]
      exact enclosed_arrives id (fun _ _ => trivial) sumFollows between_level here (by omega)
    | function function =>
      have passes := Walk.pass_arrives .opening .missingArgument here TokenKind.noConfusion
        TokenKind.noConfusion fun _ _ => trivial
      dsimp only
      cases passed : expect stop.position .opening .missingArgument behind with
      | error fault =>
        rw [passed] at passes
        exact passes.bind_of_error
      | ok inner =>
        rw [passed] at passes
        obtain ⟨opening, _, rfl⟩ := expect_eq_ok passed
        rw [List.length_cons] at enough
        refine passes.bind fun opened alike here => ?_
        exact enclosed_arrives (Expr.call function) (fun _ _ => trivial) sumFollows
          (alike.trans between_level) here (by omega)
    | stop => exact absurd kind isWord
    | closing => exact arrives_throw here trivial

/-- Every rule comes to what the reader reads with the levels that are still closed. -/
theorem phrase_follows (limit : Nat) (tokens : List Token) (stop : Token) (last : Nat)
    (phrase : Phrase) (levels : Nat) :
    ∀ nesting, nesting + levels = limit →
      PhraseFollows limit tokens stop last nesting levels phrase := by
  refine rule_induction (motive := fun phrase levels => ∀ nesting, nesting + levels = limit →
    PhraseFollows limit tokens stop last nesting levels phrase) ?_ ?_ ?_ ?_ ?_ phrase levels
  · intro whole part joins rule levels partFollows nesting total
    obtain rfl : whole.last = part := rule.last
    cases whole with
    | sum =>
      exact chain_follows sum_isChainRule rfl (by decide) (fun _ => by rw [Walk.phrase])
        (partFollows nesting total)
    | product =>
      exact chain_follows product_isChainRule rfl (by decide) (fun _ => by rw [Walk.phrase])
        (partFollows nesting total)
    | power => exact partFollows nesting total
    | operand => exact partFollows nesting total
  · intro nesting total
    exact power_follows (onLevel_follows_of_le id (by omega))
  · intro levels operandFollows powerFollows nesting total
    have deeper : nesting + 1 + levels = limit := by omega
    exact power_follows (onLevel_follows id (by omega)
      (raised_follows (operandFollows _ deeper) (powerFollows _ deeper)))
  · intro sumFollows nesting total
    exact operand_follows (sumFollows nesting total) (onLevel_follows_of_le negate (by omega))
  · intro levels sumFollows operandFollows nesting total
    have deeper : nesting + 1 + levels = limit := by omega
    exact operand_follows (sumFollows nesting total)
      (onLevel_follows negate (by omega) (operandFollows _ deeper))

end

/-! ### Whole inputs -/

section

variable {tokens body : List Token} {stop : Token} {last : Nat}

theorem whole_arrives (here : IsAt tokens stop last 0 body) {depth : Nat}
    (deep : 6 * body.length + 5 ≤ depth) (limit : Nat) :
    Arrives tokens stop last (Walk.whole limit tokens depth) {}
      ((ofBody limit stop.position body).map fun expr => (expr, [])) := by
  unfold Walk.whole
  have follows := phrase_follows limit tokens stop last .sum limit 0 (Nat.zero_add limit)
  refine follows.bind rfl here deep ?_ ?_
  · intro fault refused
    unfold ofBody
    rw [show sumOf (rules limit stop.position limit).power body = .error fault from refused]
    rfl
  · intro expr behind read between _ here
    unfold ofBody
    rw [show sumOf (rules limit stop.position limit).power body = .ok (expr, behind) from read]
    refine (Walk.look_arrives here).bind fun atEnd _ here => ?_
    cases behind with
    | nil =>
      rw [List.headD_nil, if_neg (not_not_intro here.kind_eq)]
      exact arrives_pure here expr
    | cons token behind =>
      rw [List.headD_cons, if_pos here.kind_ne]
      refine (Walk.refuse_arrives here ?_).bind_of_error
      exact fun _ _ => trivial

/-- The list of tokens ends with an end token. -/
def EndsInStop (tokens : List Token) : Prop :=
  ∃ stop, tokens.getLast? = some stop ∧ stop.isStop = true

/-- The position just behind the last token. -/
def endPosition (tokens : List Token) : Nat :=
  match tokens.getLast? with
  | none => 0
  | some last => last.position + last.text.length

theorem body_length (tokens : List Token) :
    (Expr.body tokens).length = tokens.findIdx Token.isStop := by
  unfold Expr.body
  rw [List.takeWhile_eq_take_findIdx_not, List.length_take]
  simp only [Bool.not_not]
  exact Nat.min_eq_left List.findIdx_le_length

/-- A list that ends with an end token starts with its body, which its first end token follows. -/
theorem EndsInStop.exists_isAt {tokens : List Token} (ended : EndsInStop tokens) :
    ∃ stop, IsAt tokens stop (tokens.findIdx Token.isStop) 0 (Expr.body tokens) ∧
      stop.position = stopPosition tokens := by
  obtain ⟨final, final_eq, ends⟩ := ended
  have split : Expr.body tokens ++ (tokens.dropWhile fun token => !token.isStop) = tokens :=
    List.takeWhile_append_dropWhile
  have first := List.head?_dropWhile_not (fun token => !token.isStop) tokens
  cases behind : tokens.dropWhile fun token => !token.isStop with
  | nil =>
    have member : final ∈ tokens := List.mem_of_getLast? final_eq
    have inside := List.dropWhile_eq_nil_iff.mp behind final member
    simp [ends] at inside
  | cons stop after =>
    rw [behind] at split first
    refine ⟨stop, ⟨?_, ?_, ⟨after, split.symm⟩, ?_⟩, ?_⟩
    · intro word member
      simpa using List.mem_takeWhile_imp member
    · simpa using first
    · rw [Nat.zero_add, body_length]
    · rw [stopPosition, behind, nextPosition]

theorem ofTokens_of_endsInStop {tokens : List Token} (ended : EndsInStop tokens)
    (requested : Nat) :
    ofTokens requested tokens =
      ofBody (clampLimit requested) (stopPosition tokens) (Expr.body tokens) := by
  obtain ⟨final, final_eq, ends⟩ := ended
  exact ofTokens_of_getLast? final_eq ends requested

theorem EndsInStop.findIdx_lt {tokens : List Token} (ended : EndsInStop tokens) :
    tokens.findIdx Token.isStop < tokens.length := by
  obtain ⟨final, final_eq, ends⟩ := ended
  exact List.findIdx_lt_length_of_exists ⟨final, List.mem_of_getLast? final_eq, ends⟩

/-- A walk over a list that ends with an end token comes to what is read from it; its steps fit, and
show the cause of a fault about a numeral. -/
theorem walkTokens_of_endsInStop {tokens : List Token} (ended : EndsInStop tokens)
    (requested : Nat) :
    ∃ steps, (∀ depth, 6 * tokens.length ≤ depth →
        walkTokens depth requested tokens = some (ofTokens requested tokens, steps)) ∧
      (∀ step ∈ steps,
        step.Fits tokens (tokens.findIdx Token.isStop) (ofTokens requested tokens)) ∧
      ∀ fault, ofTokens requested tokens = .error fault → IsCaused tokens steps fault := by
  obtain ⟨stop, here, position_eq⟩ := ended.exists_isAt
  have deep : 6 * (Expr.body tokens).length + 5 ≤ 6 * tokens.length := by
    have inside := ended.findIdx_lt
    rw [body_length]
    omega
  obtain ⟨after, walked, reached⟩ := whole_arrives here deep (clampLimit requested)
  rw [position_eq, ← ofTokens_of_endsInStop ended] at walked reached
  obtain ⟨steps, steps_eq, fit⟩ := reached.passes.imp fun _ => map_eq_error_iff.mp
  have caused := reached.caused
  rw [steps_eq, List.append_nil] at caused
  refine ⟨steps, fun depth enough => walkTokens_of_le enough ?_, fit,
    fun fault refused => caused fault (map_eq_error_iff.mpr refused)⟩
  obtain ⟨final, final_eq, ends⟩ := ended
  simp only [walkTokens, final_eq, ends, if_true, walked, Option.map_some, steps_eq,
    List.append_nil]
  cases ofTokens requested tokens <;> rfl

/-- What stands behind the first end token does not show in what is read. -/
theorem ofTokens_take {tokens : List Token} (ended : EndsInStop tokens) (requested : Nat) :
    ofTokens requested (tokens.take (tokens.findIdx Token.isStop + 1)) =
      ofTokens requested tokens := by
  obtain ⟨stop, here, position_eq⟩ := ended.exists_isAt
  obtain ⟨behind, split⟩ := here.split
  rw [List.drop_zero] at split
  have cut : tokens.take (tokens.findIdx Token.isStop + 1) = Expr.body tokens ++ [stop] :=
    calc tokens.take (tokens.findIdx Token.isStop + 1)
      _ = (Expr.body tokens ++ stop :: behind).take ((Expr.body tokens).length + 1) := by
        rw [body_length, ← split]
      _ = Expr.body tokens ++ [stop] := List.take_length_add_append 1
  rw [cut, ofTokens_append_stop here.inside here.ends, ofTokens_of_endsInStop ended, position_eq]

theorem walkTokens_of_not_endsInStop {tokens : List Token} (unended : ¬EndsInStop tokens)
    (requested : Nat) :
    (∀ depth, walkTokens depth requested tokens = some (ofTokens requested tokens, [])) ∧
      ofTokens requested tokens =
        .error (.grammar .missingEnd (endPosition tokens % (greatestCount + 1))) := by
  unfold walkTokens ofTokens endPosition
  cases final_eq : tokens.getLast? with
  | none => exact ⟨fun _ => rfl, rfl⟩
  | some final =>
    have other : ¬final.isStop = true := fun ends => unended ⟨final, final_eq, ends⟩
    simp only [if_neg other, Token.positionBehind, implies_true, and_self]

/-- A walk over any list that ends with an end token comes to an end, with the tree or the fault
that the reader finds: calls inside each other, at most six for a token, are enough. All its steps
stay between the start and the first end token, and what stands behind that token makes no
difference. A list that does not end with an end token is refused without a step, just behind its
last token; positions are counted in one word, and the place that is told is this one where the word
holds it. -/
theorem walkTokens_stays_inside (requested : Nat) (tokens : List Token) :
    (EndsInStop tokens →
      ∃ steps, (∀ depth, 6 * tokens.length ≤ depth →
          walkTokens depth requested tokens = some (ofTokens requested tokens, steps)) ∧
        (∀ step ∈ steps, step.cursor ≤ tokens.findIdx Token.isStop) ∧
        tokens.findIdx Token.isStop < tokens.length ∧
        ofTokens requested tokens =
          ofTokens requested (tokens.take (tokens.findIdx Token.isStop + 1))) ∧
      (¬EndsInStop tokens →
        (∀ depth, walkTokens depth requested tokens = some (ofTokens requested tokens, [])) ∧
        ofTokens requested tokens =
          .error (.grammar .missingEnd (endPosition tokens % (greatestCount + 1))) ∧
        (endPosition tokens ≤ greatestCount →
          ofTokens requested tokens = .error (.grammar .missingEnd (endPosition tokens)))) := by
  refine ⟨fun ended => ?_, fun unended => ?_⟩
  · obtain ⟨steps, walked, fit, _⟩ := walkTokens_of_endsInStop ended requested
    exact ⟨steps, walked, fun step member => (fit step member).inside, ended.findIdx_lt,
      (ofTokens_take ended requested).symm⟩
  · obtain ⟨walked, refused⟩ := walkTokens_of_not_endsInStop unended requested
    refine ⟨walked, refused, fun fits => ?_⟩
    rw [refused, Nat.mod_eq_of_lt (Nat.lt_succ_of_le fits)]

/-- A number, an end token, and behind it a parenthesis and another end token. -/
def numberBeforeEnds : List Token :=
  [⟨.number, "1", 0⟩, .stop 1, ⟨.closing, ")", 2⟩, .stop 3]

/-- The walk stops at the first end token; without any end token nothing is read. -/
theorem walkTokens_numberBeforeEnds :
    EndsInStop numberBeforeEnds ∧
      (∃ steps, walkTokens 24 1 numberBeforeEnds = some (.ok (.number 1.0), steps) ∧
        ∀ step ∈ steps, step.cursor ≤ 1) ∧
      ¬EndsInStop [⟨.number, "1", 0⟩] ∧
      walkTokens 0 1 [⟨.number, "1", 0⟩] = some (.error (.grammar .missingEnd 1), []) := by
  have ended : EndsInStop numberBeforeEnds := ⟨.stop 3, rfl, rfl⟩
  have unended : ¬EndsInStop [⟨.number, "1", 0⟩] := by
    rintro ⟨final, final_eq, ends⟩
    cases final_eq
    cases ends
  obtain ⟨steps, walked, inside, -, -⟩ := (walkTokens_stays_inside 1 numberBeforeEnds).1 ended
  obtain ⟨refused, -, fault⟩ := (walkTokens_stays_inside 1 [⟨.number, "1", 0⟩]).2 unended
  have read : ofTokens 1 numberBeforeEnds = .ok (.number 1.0) := by decide +kernel
  have fits : endPosition [⟨.number, "1", 0⟩] ≤ greatestCount := by decide
  rw [read] at walked
  rw [fault fits] at refused
  exact ⟨ended, ⟨steps, walked 24 (Nat.le_refl _), inside⟩, unended, refused 0⟩

/-- Behind a token at the greatest position a word starts again at zero, and zero is told as the
place where the end is missing. -/
theorem missingEnd_at_zero :
    let tokens : List Token := [⟨.number, "1", greatestCount⟩]
    ¬EndsInStop tokens ∧ endPosition tokens = greatestCount + 1 ∧
      ofTokens greatestLimit tokens = .error (.grammar .missingEnd 0) ∧
      ofTokens greatestLimit tokens ≠ .error (.grammar .missingEnd (endPosition tokens)) := by
  intro tokens
  have told : ofTokens greatestLimit tokens = .error (.grammar .missingEnd 0) := rfl
  have behind : endPosition tokens = greatestCount + 1 := rfl
  refine ⟨?_, behind, told, ?_⟩
  · rintro ⟨final, final_eq, ends⟩
    cases final_eq
    cases ends
  · rw [told, behind]
    intro same
    cases same

end

end DeskCalculator.Expr
