/-
This file compares the outcomes of one input under two limits. A greater limit
changes nothing but refusals for depth. Where the smaller limit refused the
input, some sentence goes on from there with one level more, so the reading
under the greater limit gets at least as far: what it refuses it refuses at the
same token or at a later one, and for depth only at a later one.
-/

import DeskCalculator.Proofs.Composition

namespace DeskCalculator

/-! ### Outcomes under two limits -/

/-- The outcome is a refusal for depth. -/
def IsTooDeep {α : Type} (outcome : Except Fault α) : Prop :=
  ∃ limit position, outcome = .error (.tooDeep limit position)

/-- What a greater limit may make of an outcome. An outcome that is no refusal for depth is kept.
A refusal for depth gives way to a success, to a fault of the grammar that is no earlier in the
input, or to a refusal for depth, which is later in the input when the limit is really greater. -/
inductive Relaxes {α : Type} (succeeds : Except Fault α → Prop) (wider : Prop) :
    Except Fault α → Except Fault α → Prop where
  | kept {outcome : Except Fault α} (shallow : ¬IsTooDeep outcome) :
      Relaxes succeeds wider outcome outcome
  | success {limit position : Nat} {outcome : Except Fault α} (succeeded : succeeds outcome) :
      Relaxes succeeds wider (.error (.tooDeep limit position)) outcome
  | grammar {limit position later : Nat} {cause : GrammarFault} (notEarlier : position ≤ later) :
      Relaxes succeeds wider (.error (.tooDeep limit position)) (.error (.grammar cause later))
  | depth {limit position greater later : Nat} (isLater : wider → position < later) :
      Relaxes succeeds wider (.error (.tooDeep limit position)) (.error (.tooDeep greater later))

namespace Expr

/-! ### Places in an input -/

theorem clampLimit_mono {requested greater : Nat} (more : requested ≤ greater) :
    clampLimit requested ≤ clampLimit greater := by
  unfold clampLimit
  omega

/-- Of two places in one list the first is before the second, after it, or the same. -/
theorem place_cases {first second firstRest secondRest : List Token} {token other : Token}
    (same : first ++ token :: firstRest = second ++ other :: secondRest) :
    (∃ between, first = second ++ other :: between) ∨ (first = second ∧ token = other) ∨
      ∃ between, second = first ++ token :: between := by
  obtain ⟨between, rfl, tail_eq⟩ | ⟨between, rfl, tail_eq⟩ := List.append_eq_append_iff.mp same
  · cases between with
    | nil => exact .inr (.inl ⟨(List.append_nil _).symm, (List.cons.inj tail_eq).1⟩)
    | cons next between =>
      obtain ⟨rfl, _⟩ := List.cons.inj tail_eq
      exact .inr (.inr ⟨between, rfl⟩)
  · cases between with
    | nil => exact .inr (.inl ⟨List.append_nil _, (List.cons.inj tail_eq).1.symm⟩)
    | cons next between =>
      obtain ⟨rfl, _⟩ := List.cons.inj tail_eq
      exact .inl ⟨between, rfl⟩

theorem position_lt_of_between {before between rest : List Token} {token later : Token}
    (increasing : (before ++ token :: between ++ later :: rest).Pairwise
      fun first second => first.position < second.position) :
    token.position < later.position := by
  obtain ⟨_, _, apart⟩ := List.pairwise_append.mp increasing
  exact apart token (by simp) later (by simp)

/-! ### Refusals under two limits -/

/-- Where depth is refused, some sentence goes on that nests one level more; so a grammar that
refused earlier would refuse this sentence. -/
theorem Refusal.not_grammar_before {levels otherLevels : Nat}
    {before after otherRest between : List Token} {token : Token} {cause : GrammarFault}
    (refusal : Refusal sentenceReaders (Fits .sum (levels + 1)) levels
      (before ++ token :: between) after .depth)
    (inside : token.isStop = false)
    (other : Refusal sentenceReaders (Fits .sum (otherLevels + 1)) otherLevels before
      (body (token :: otherRest)) (.grammar cause)) : False := by
  obtain ⟨completion, expr, nesting, derived, _⟩ := refusal.viable
  rw [List.append_assoc, List.cons_append] at derived
  have same : (token :: (between ++ completion)).head? = (body (token :: otherRest)).head? := by
    simp [body, inside]
  exact other.not_forms same ⟨expr, nesting, derived⟩

/-- A limit that is greater allows this sentence, so depth is refused later. -/
theorem Refusal.not_depth_before {levels otherLevels : Nat}
    {before after otherAfter between : List Token}
    (refusal : Refusal sentenceReaders (Fits .sum (levels + 1)) levels (before ++ between) after
      .depth)
    (wider : levels < otherLevels)
    (other : Refusal sentenceReaders (Fits .sum (otherLevels + 1)) otherLevels before otherAfter
      .depth) : False := by
  obtain ⟨completion, expr, nesting, derived, fits⟩ := refusal.viable
  rw [List.append_assoc] at derived
  exact absurd (other.levels_lt derived) (Nat.not_lt_of_le (Nat.le_trans fits wider))

/-- Under a greater limit every outcome stays, but for refusals for depth. -/
theorem ofTokens_relaxes {requested greater : Nat} (more : requested ≤ greater)
    {words : List Token} {stop : Token} (inside : ∀ word ∈ words, word.isStop = false)
    (ends : stop.isStop = true)
    (increasing : (words ++ [stop]).Pairwise
      fun first second => first.position < second.position) :
    Relaxes (fun outcome => ∃ expr, outcome = .ok expr)
      (clampLimit requested < clampLimit greater) (ofTokens requested (words ++ [stop]))
      (ofTokens greater (words ++ [stop])) := by
  have levels_le := clampLimit_mono more
  cases read : ofTokens requested (words ++ [stop]) with
  | ok expr =>
    rw [ofTokens_append_stop inside ends, ofBody_eq_ok_iff] at read
    obtain ⟨nesting, derived, fits⟩ := read
    have again : ofTokens greater (words ++ [stop]) = .ok expr := by
      rw [ofTokens_append_stop inside ends, ofBody_eq_ok_iff]
      exact ⟨nesting, derived, Nat.le_trans fits levels_le⟩
    rw [again]
    refine .kept ?_
    rintro ⟨_, _, same⟩
    cases same
  | error fault =>
    obtain ⟨before, token, rest, obstacle, split, beforeInside, rfl, refusal⟩ :=
      exists_refusal inside ends read
    have ended : (before ++ token :: rest).getLast? = some stop := by
      rw [← split]
      exact List.getLast?_concat
    cases obstacle with
    | grammar cause =>
      have again := refusal.ofTokens_of_stays beforeInside rest ⟨levels_le, rfl⟩ ended ends
      rw [split, again]
      refine .kept ?_
      rintro ⟨_, _, same⟩
      cases same
    | depth =>
      cases reread : ofTokens greater (words ++ [stop]) with
      | ok expr => exact .success ⟨expr, rfl⟩
      | error laterFault =>
        obtain ⟨laterBefore, later, laterRest, laterObstacle, laterSplit, laterInside, rfl,
          laterRefusal⟩ := exists_refusal inside ends reread
        -- The second refusal cannot come first, since the tokens before the first one go on.
        rcases place_cases (split.symm.trans laterSplit) with
          ⟨between, rfl⟩ | ⟨rfl, rfl⟩ | ⟨between, rfl⟩
        · have inner : later.isStop = false := beforeInside later (by simp)
          cases laterObstacle with
          | grammar cause => exact (refusal.not_grammar_before inner laterRefusal).elim
          | depth => exact .depth fun wider => (refusal.not_depth_before wider laterRefusal).elim
        · cases laterObstacle with
          | grammar cause => exact .grammar (Nat.le_refl _)
          | depth =>
            refine .depth fun wider => ?_
            rw [← List.append_nil before] at refusal
            exact (refusal.not_depth_before wider laterRefusal).elim
        · rw [laterSplit] at increasing
          have isLater := position_lt_of_between increasing
          cases laterObstacle with
          | grammar cause => exact .grammar (Nat.le_of_lt isLater)
          | depth => exact .depth fun _ => isLater

end Expr

/-! ### Engines with two limits -/

theorem Relaxes.bind {α β : Type} {wider : Prop} {tight loose : Except Fault α}
    {next : α → Except Fault β} (shallow : ∀ found, ¬IsTooDeep (next found))
    (relaxes : Relaxes (fun outcome => ∃ found, outcome = .ok found) wider tight loose) :
    Relaxes (fun outcome => ∃ found, loose = .ok found ∧ outcome = next found) wider
      (tight.bind next) (loose.bind next) := by
  cases relaxes with
  | kept notDeep =>
    refine .kept ?_
    cases tight with
    | ok found => exact shallow found
    | error fault =>
      rintro ⟨limit, position, same⟩
      obtain rfl : fault = .tooDeep limit position := Except.error.inj same
      exact notDeep ⟨limit, position, rfl⟩
  | success succeeded =>
    obtain ⟨found, rfl⟩ := succeeded
    exact .success ⟨found, rfl, rfl⟩
  | grammar notEarlier => exact .grammar notEarlier
  | depth isLater => exact .depth isLater

namespace Engine

theorem value_shallow (mode : AngleMode) (expr : Expr) : ¬IsTooDeep (value mode expr) := by
  rintro ⟨limit, position, same⟩
  unfold value at same
  cases evaluated : expr.evaluate mode with
  | ok found =>
    rw [evaluated] at same
    cases same
  | error cause =>
    rw [evaluated] at same
    cases same

theorem read_ofLimit {text : String} {found : List Token} (lexed : Token.lex text = .ok found)
    (requested : Nat) : (ofLimit requested).read text = Expr.ofTokens requested found := by
  have limit_eq : Expr.clampLimit (ofLimit requested).limit = Expr.clampLimit requested :=
    Expr.clampLimit_clampLimit requested
  rw [read, tokens, lexed]
  show Expr.ofTokens (ofLimit requested).limit found = _
  unfold Expr.ofTokens
  rw [limit_eq]

theorem read_relaxes {requested greater : Nat} (more : requested ≤ greater) (text : String) :
    Relaxes (fun outcome => ∃ expr, outcome = .ok expr)
      (Expr.clampLimit requested < Expr.clampLimit greater) ((ofLimit requested).read text)
      ((ofLimit greater).read text) := by
  have lexing := Token.lex_isLexing text
  cases lexed : Token.lex text with
  | error fault =>
    rw [lexed] at lexing
    obtain ⟨word, position, _, _, rfl, _⟩ := lexing
    have refused : ∀ engine : Engine, engine.read text =
        .error (.unknownWord (String.ofList word) position) := fun engine => by
      rw [read, tokens, lexed]
      rfl
    rw [refused, refused]
    refine .kept ?_
    rintro ⟨_, _, same⟩
    cases same
  | ok found =>
    rw [lexed] at lexing
    obtain ⟨words, rfl, partition⟩ := lexing
    rw [read_ofLimit lexed, read_ofLimit lexed]
    exact Expr.ofTokens_relaxes more (fun word member => partition.isStop_eq_false member) rfl
      partition.increasing_append_stop

/-- A greater limit changes no outcome but refusals for depth, neither of reading the tokens of a
text nor of evaluating the text. A success in place of a refusal is a tree, and in an evaluation
the value of this tree or the fault of one of its operations. -/
theorem limit_transparent (text : String) (mode : AngleMode) {requested greater : Nat}
    (more : requested ≤ greater) :
    (∀ tokens, Token.lex text = .ok tokens →
      Relaxes (fun outcome => ∃ expr, outcome = .ok expr)
        (Expr.clampLimit requested < Expr.clampLimit greater)
        (Expr.ofTokens requested tokens) (Expr.ofTokens greater tokens)) ∧
    Relaxes
      (fun outcome => ∃ expr, (ofLimit greater).read text = .ok expr ∧ outcome = value mode expr)
      (Expr.clampLimit requested < Expr.clampLimit greater)
      ((ofLimit requested).evaluate text mode) ((ofLimit greater).evaluate text mode) := by
  have relaxes := read_relaxes more text
  constructor
  · intro tokens lexed
    rwa [read_ofLimit lexed, read_ofLimit lexed] at relaxes
  · rw [evaluate_eq_bind, evaluate_eq_bind]
    exact relaxes.bind (value_shallow mode)

/-- The words of `2^(3`, whose parenthesis is not closed, and the end after them. -/
def unclosedExponent : List Token :=
  [⟨.number, "2", 0⟩, ⟨.operator .raise, "^", 1⟩, ⟨.opening, "(", 2⟩, ⟨.number, "3", 3⟩, .stop 4]

/-- One level does not reach the exponent, and three levels reach the missing parenthesis. -/
theorem limit_transparent_unclosedExponent :
    1 ≤ 3 ∧ Token.lex "2^(3" = .ok unclosedExponent ∧
      Expr.ofTokens 1 unclosedExponent = .error (.tooDeep 1 2) ∧
      Expr.ofTokens 3 unclosedExponent = .error (.grammar .unclosedGroup 4) ∧
      Relaxes (fun outcome => ∃ expr, outcome = .ok expr)
        (Expr.clampLimit 1 < Expr.clampLimit 3) (Expr.ofTokens 1 unclosedExponent)
        (Expr.ofTokens 3 unclosedExponent) := by
  have lexed : Token.lex "2^(3" = .ok unclosedExponent := by rfl
  have more : 1 ≤ 3 := by decide
  exact ⟨more, lexed, by rfl, by rfl, (limit_transparent "2^(3" .degrees more).1 _ lexed⟩

end Engine

end DeskCalculator
