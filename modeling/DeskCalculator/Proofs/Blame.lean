/-
This file proves that the fault of a refused input blames the first token at
fault. The readers of whole inputs are explained like those of the rules; so up
to the token some sentence starts like the input, and from the token on none
does, or none that nests within the limit. The positions of tokens increase, so
the position of a fault names one token.
-/

import DeskCalculator.Proofs.Lexing
import DeskCalculator.Proofs.Refusal

namespace DeskCalculator.Expr

/-! ### Whole inputs -/

/-- The readers of whole inputs, which hold one sum and nothing after it. -/
def sentenceReaders : Run Expr := fun limit stop levels body =>
  match reader limit stop levels .sum body with
  | .error fault => .error fault
  | .ok (expr, []) => .ok expr
  | .ok (_, token :: _) => .error (.grammar .trailingToken token.position)

theorem ofBody_eq_sentenceReaders (limit stop : Nat) :
    ofBody limit stop = sentenceReaders limit stop limit := rfl

theorem sentence_explains (levels : Nat) :
    Explains sentenceReaders (Fits .sum (levels + 1)) levels := by
  intro limit stop tokens fault refused
  have ruled := refused
  unfold sentenceReaders at ruled
  split at ruled
  · rename_i sumFault sumRefused
    cases ruled
    have explained := reader_explains levels .sum limit stop tokens fault sumRefused
    refine explained.within_last 0 [] ?_ ?_
    · intro tokens fits
      exact fits
    · intro limit stop otherLevels input fault _ refused
      show sentenceReaders limit stop otherLevels input = .error fault
      rw [sentenceReaders,
        show reader limit stop otherLevels .sum input = .error fault from refused]
  · cases ruled
  · rename_i expr token rest sumRead
    obtain ⟨front, nesting, rfl, derived, fits, ended⟩ :=
      reader_reads limit stop levels .sum _ _ _ sumRead
    refine Explained.of_again front (.grammar .trailingToken)
      ⟨[], expr, nesting, ?_, Nat.le_succ_of_le fits⟩ ?_ refused
    · rwa [List.append_nil]
    · rintro limit stop otherLevels other ⟨more, same⟩
      obtain ⟨behind, rfl⟩ := List.head?_eq_some_iff.mp same
      have read := derived.reader_of_ended limit stop (Nat.le_trans fits more)
        (show startsWith Phrase.sum.goesOn (token :: behind) = false from ended)
      rw [sentenceReaders, read]
      rfl

/-- Before an obstacle of the grammar no sentence goes on with the next token. -/
theorem Refusal.not_forms {levels : Nat} {before after : List Token} {cause : GrammarFault}
    (refusal : Refusal sentenceReaders (Fits .sum (levels + 1)) levels before after
      (.grammar cause))
    {other : List Token} (same : other.head? = after.head?) :
    ¬ Phrase.sum.Forms (before ++ other) := by
  rintro ⟨expr, nesting, derived⟩
  have read : ofBody (max levels nesting) 0 (before ++ other) = .ok expr :=
    ofBody_eq_ok_iff.mpr ⟨nesting, derived, Nat.le_max_right _ _⟩
  have refused := refusal.again (max levels nesting) 0 (max levels nesting) other
    ⟨Nat.le_max_left _ _, same⟩
  rw [← ofBody_eq_sentenceReaders, read] at refused
  cases refused

/-- After the front before an obstacle of depth every sentence nests deeper than the levels. -/
theorem Refusal.levels_lt {levels : Nat} {before after : List Token}
    (refusal : Refusal sentenceReaders (Fits .sum (levels + 1)) levels before after .depth)
    {other : List Token} {expr : Expr} {nesting : Nat}
    (derived : Derivation .sum (before ++ other) expr nesting) : levels < nesting := by
  refine Nat.lt_of_not_le fun fits => ?_
  have read : ofBody levels 0 (before ++ other) = .ok expr :=
    ofBody_eq_ok_iff.mpr ⟨nesting, derived, fits⟩
  have refused := refusal.again levels 0 levels other rfl
  rw [← ofBody_eq_sentenceReaders, read] at refused
  cases refused

/-! ### Inputs with their end -/

theorem body_head?_eq (token : Token) (rest other : List Token) :
    (body (token :: rest)).head? = (body (token :: other)).head? := by
  unfold body
  rw [List.takeWhile_cons, List.takeWhile_cons]
  split <;> rfl

theorem nextPosition_body (token : Token) (rest : List Token) :
    nextPosition (stopPosition (token :: rest)) (body (token :: rest)) = token.position := by
  cases stops : token.isStop with
  | true =>
    rw [body_cons_of_stop stops, stopPosition_cons_of_stop stops]
    rfl
  | false =>
    rw [show token :: rest = [token] ++ rest from rfl,
      body_append (by simpa using stops)]
    rfl

/-- A refused input has a first offending token, and every input that agrees with it up to this
token is refused with the same fault. -/
theorem exists_refusal {requested : Nat} {words : List Token} {stop : Token} {fault : Fault}
    (inside : ∀ word ∈ words, word.isStop = false) (ends : stop.isStop = true)
    (refused : ofTokens requested (words ++ [stop]) = .error fault) :
    ∃ before token rest obstacle, words ++ [stop] = before ++ token :: rest ∧
      (∀ word ∈ before, word.isStop = false) ∧
      fault = obstacle.fault (clampLimit requested) token.position ∧
      Refusal sentenceReaders (Fits .sum (clampLimit requested + 1)) (clampLimit requested) before
        (body (token :: rest)) obstacle := by
  rw [ofTokens_append_stop inside ends, ofBody_eq_sentenceReaders] at refused
  obtain ⟨before, after, obstacle, rfl, rfl, refusal⟩ := sentence_explains _ _ _ _ _ refused
  have afterInside : ∀ word ∈ after, word.isStop = false := fun word member =>
    inside word (List.mem_append_right before member)
  obtain ⟨token, rest, split⟩ : ∃ token rest, after ++ [stop] = token :: rest :=
    List.exists_cons_of_ne_nil (List.append_ne_nil_of_right_ne_nil _ (List.cons_ne_nil _ _))
  have after_eq : after = body (token :: rest) := by
    rw [← split, body_append afterInside, body_cons_of_stop ends, List.append_nil]
  have stop_eq : stop.position = stopPosition (token :: rest) := by
    rw [← split, stopPosition_append afterInside, stopPosition_cons_of_stop ends]
  refine ⟨before, token, rest, obstacle, ?_, ?_, ?_, ?_⟩
  · rw [List.append_assoc, split]
  · exact fun word member => inside word (List.mem_append_left after member)
  · rw [stop_eq, after_eq, nextPosition_body]
  · rwa [← after_eq]

/-- An obstacle is met again in every input that agrees up to its token, under every limit under
which it stays. -/
theorem Refusal.ofTokens_of_stays {requested greater : Nat} {before rest : List Token}
    {token : Token} {obstacle : Obstacle}
    (refusal : Refusal sentenceReaders (Fits .sum (clampLimit requested + 1))
      (clampLimit requested) before (body (token :: rest)) obstacle)
    (inside : ∀ word ∈ before, word.isStop = false) (other : List Token)
    (stays : obstacle.Stays (body (token :: rest)) (clampLimit requested)
      (body (token :: other)) (clampLimit greater)) {stop : Token}
    (ended : (before ++ token :: other).getLast? = some stop) (ends : stop.isStop = true) :
    ofTokens greater (before ++ token :: other) =
      .error (obstacle.fault (clampLimit greater) token.position) := by
  rw [ofTokens_of_getLast? ended ends, body_append inside, stopPosition_append inside,
    ofBody_eq_sentenceReaders, refusal.again _ _ _ _ stays, nextPosition_body]

theorem Refusal.ofTokens_again {requested : Nat} {before rest : List Token} {token : Token}
    {obstacle : Obstacle}
    (refusal : Refusal sentenceReaders (Fits .sum (clampLimit requested + 1))
      (clampLimit requested) before (body (token :: rest)) obstacle)
    (inside : ∀ word ∈ before, word.isStop = false) (other : List Token) {stop : Token}
    (ended : (before ++ token :: other).getLast? = some stop) (ends : stop.isStop = true) :
    ofTokens requested (before ++ token :: other) =
      .error (obstacle.fault (clampLimit requested) token.position) := by
  refine refusal.ofTokens_of_stays inside other ?_ ended ends
  cases obstacle with
  | grammar cause => exact ⟨Nat.le_refl _, body_head?_eq token other rest⟩
  | depth => rfl

/-! ### The first offending token -/

/-- The tokens are the front of a sentence. -/
def IsViable (tokens : List Token) : Prop :=
  ∃ rest, Phrase.sum.Forms (tokens ++ rest)

/-- The fault blames the token after these tokens. Either the grammar lets a sentence start with
the tokens before it, but with the token no more; or every sentence that starts with the tokens
before it, of which there is one at least, nests deeper than the limit. -/
def Blames (requested : Nat) (before : List Token) (token : Token) : Fault → Prop
  | .grammar _ position => position = token.position ∧ IsViable before ∧
    ¬ IsViable (before ++ [token]) ∧ (token.isStop = true → ¬ Phrase.sum.Forms before)
  | .tooDeep limit position => position = token.position ∧ limit = clampLimit requested ∧
    IsViable before ∧
    ∀ rest expr nesting, Derivation .sum (before ++ rest) expr nesting → limit < nesting
  | _ => False

theorem Blames.position?_eq {requested : Nat} {before : List Token} {token : Token} {fault : Fault}
    (blames : Blames requested before token fault) : fault.position? = some token.position := by
  cases fault with
  | grammar cause position => exact congrArg some blames.1
  | tooDeep limit position => exact congrArg some blames.1
  | unknownWord text position => cases blames
  | math cause => cases blames

theorem Refusal.blames {requested : Nat} {before rest : List Token} {token : Token}
    {obstacle : Obstacle}
    (refusal : Refusal sentenceReaders (Fits .sum (clampLimit requested + 1))
      (clampLimit requested) before (body (token :: rest)) obstacle) :
    Blames requested before token
      (obstacle.fault (clampLimit requested) token.position) := by
  have viable : IsViable before := by
    obtain ⟨completion, expr, nesting, derived, _⟩ := refusal.viable
    exact ⟨completion, expr, nesting, derived⟩
  cases obstacle with
  | grammar cause =>
    refine ⟨rfl, viable, ?_, ?_⟩
    · rintro ⟨more, formed⟩
      rw [List.append_assoc, List.singleton_append] at formed
      cases stops : token.isStop with
      | true =>
        obtain ⟨_, _, derived⟩ := formed
        have fits := (derived.word_fits token (by simp)).1
        rw [stops] at fits
        cases fits
      | false =>
        have same : (token :: more).head? = (body (token :: rest)).head? := by
          simp [body, stops]
        exact refusal.not_forms same formed
    · intro stops formed
      have same : ([] : List Token).head? = (body (token :: rest)).head? := by
        rw [body_cons_of_stop stops]
      refine refusal.not_forms same ?_
      rwa [List.append_nil]
  | depth => exact ⟨rfl, rfl, viable, fun rest expr nesting => refusal.levels_lt⟩

/-- When the tokens of an accepted text are refused, the fault points at exactly one of them and
blames it, and every input that agrees up to this token and ends is refused with the same fault.
No sentence holds a number that is not spelled as one. -/
theorem ofTokens_blames (text : String) (tokens : List Token) (requested : Nat) (fault : Fault)
    (lexed : Token.lex text = .ok tokens) (refused : ofTokens requested tokens = .error fault) :
    ∃ index token, tokens[index]? = some token ∧
      Blames requested (tokens.take index) token fault ∧
      (∀ otherIndex otherToken, tokens[otherIndex]? = some otherToken →
        fault.position? = some otherToken.position → otherIndex = index) ∧
      (∀ other stop, other.getLast? = some stop → stop.isStop = true →
        other.take (index + 1) = tokens.take (index + 1) →
        ofTokens requested other = .error fault) ∧
      (∀ number before after, number.kind = .number → Numeral.read? number.text = none →
        ¬ Phrase.sum.Forms (before ++ number :: after)) := by
  have lexing := Token.lex_isLexing text
  rw [lexed] at lexing
  obtain ⟨words, rfl, partition⟩ := lexing
  have inside : ∀ word ∈ words, word.isStop = false := fun word member =>
    partition.isStop_eq_false member
  obtain ⟨before, token, rest, obstacle, split, beforeInside, rfl, refusal⟩ :=
    exists_refusal inside rfl refused
  have blames := refusal.blames
  have increasing := partition.increasing_append_stop
  rw [split] at increasing ⊢
  have here : (before ++ token :: rest)[before.length]? = some token := by simp
  refine ⟨before.length, token, here, ?_, ?_, ?_, ?_⟩
  · rwa [List.take_left]
  · intro otherIndex otherToken there points
    rw [blames.position?_eq] at points
    have same : token.position = otherToken.position := Option.some.inj points
    obtain ⟨hereBound, hereEq⟩ := List.getElem?_eq_some_iff.mp here
    obtain ⟨thereBound, thereEq⟩ := List.getElem?_eq_some_iff.mp there
    rw [List.pairwise_iff_getElem] at increasing
    rcases Nat.lt_trichotomy otherIndex before.length with earlier | equal | later
    · have less := increasing _ _ thereBound hereBound earlier
      rw [hereEq, thereEq, same] at less
      exact absurd less (Nat.lt_irrefl _)
    · exact equal
    · have less := increasing _ _ hereBound thereBound later
      rw [hereEq, thereEq, same] at less
      exact absurd less (Nat.lt_irrefl _)
  · intro other stop ended ends agrees
    have upTo : (before ++ token :: rest).take (before.length + 1) = before ++ [token] := by
      rw [List.take_length_add_append]
      rfl
    have other_eq := (List.take_append_drop (before.length + 1) other).symm
    rw [agrees, upTo, List.append_assoc, List.singleton_append] at other_eq
    rw [other_eq] at ended ⊢
    exact refusal.ofTokens_again beforeInside _ ended ends
  · rintro number before after kind misspelled ⟨expr, nesting, derived⟩
    exact (derived.word_fits number (by simp)).2 kind misspelled

/-- The words of `(E + )`, whose second operand is missing, and the end after them. -/
def missingOperand : List Token :=
  [⟨.opening, "(", 0⟩, ⟨.constant .e, "E", 1⟩, ⟨.operator .add, "+", 3⟩, ⟨.closing, ")", 5⟩,
    .stop 6]

theorem ofTokens_missingOperand :
    Token.lex "(E + )" = .ok missingOperand ∧
      ofTokens 256 missingOperand = .error (.grammar (.unexpectedToken ")") 5) ∧
      ∃ index token, missingOperand[index]? = some token ∧
        Blames 256 (missingOperand.take index) token (.grammar (.unexpectedToken ")") 5) := by
  have lexed : Token.lex "(E + )" = .ok missingOperand := by rfl
  have refused : ofTokens 256 missingOperand = .error (.grammar (.unexpectedToken ")") 5) := by rfl
  obtain ⟨index, token, here, blames, _⟩ := ofTokens_blames _ _ _ _ lexed refused
  exact ⟨lexed, refused, index, token, here, blames⟩

end DeskCalculator.Expr
