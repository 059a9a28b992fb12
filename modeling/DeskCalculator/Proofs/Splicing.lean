/-
This file proves that the memory is brought back as one operand, whatever text
it is brought into. Where a text stops before an operand, an operand that is
put there is read as this operand and never in parts, so that another operand
with the same tree can take its place and the tree of the whole stays the same.
The result text of a number is such an operand, with or without parentheses
around it, and it keeps its words between any neighbours; this would not be so
if a minus sign took in the power behind it.
-/

import DeskCalculator.Proofs.Recall

namespace DeskCalculator

/-- Whether a word of this kind stands before an operand. -/
def TokenKind.awaitsOperand : TokenKind → Bool
  | .opening => true
  | .operator _ => true
  | _ => false

/-- The tokens stop before an operand: there are none, or the last one is an opening parenthesis
or an operator. -/
def AwaitsOperand (tokens : List Token) : Prop :=
  ∀ last ∈ tokens.getLast?, last.kind.awaitsOperand = true

namespace Expr

/-! ### Places of operands -/

theorem awaitsOperand_of_append {front back : List Token}
    (awaits : AwaitsOperand (front ++ back)) : AwaitsOperand back := by
  intro last found
  refine awaits last ?_
  rw [List.getLast?_append, Option.mem_def.mp found]
  rfl

theorem not_awaitsOperand_append {front back : List Token} (complete : ¬AwaitsOperand back) :
    ¬AwaitsOperand (front ++ back) :=
  mt awaitsOperand_of_append complete

theorem not_awaitsOperand_singleton {token : Token} {kind : TokenKind} (same : token.kind = kind)
    (last : kind.awaitsOperand = false) : ¬AwaitsOperand [token] := by
  intro awaits
  have awaited := awaits token rfl
  rw [same, last] at awaited
  cases awaited

/-- A phrase ends with a number, a constant or a closing parenthesis. -/
theorem Derivation.not_awaitsOperand {phrase : Phrase} {tokens : List Token} {expr : Expr}
    {nesting : Nat} (derived : Derivation phrase tokens expr nesting) :
    ¬AwaitsOperand tokens := by
  induction derived with
  | number kind _ => exact not_awaitsOperand_singleton kind rfl
  | constant kind => exact not_awaitsOperand_singleton kind rfl
  | negation _ _ inductionHypothesis =>
    rw [← List.singleton_append]
    exact not_awaitsOperand_append inductionHypothesis
  | group _ closes _ _ =>
    rw [← List.cons_append]
    exact not_awaitsOperand_append (not_awaitsOperand_singleton closes rfl)
  | call _ _ closes _ _ =>
    rw [← List.cons_append, ← List.cons_append]
    exact not_awaitsOperand_append (not_awaitsOperand_singleton closes rfl)
  | base _ inductionHypothesis => exact inductionHypothesis
  | raised _ _ _ _ powerHypothesis =>
    rw [List.append_cons]
    exact not_awaitsOperand_append powerHypothesis
  | factor _ inductionHypothesis => exact inductionHypothesis
  | times _ _ _ _ _ powerHypothesis =>
    rw [List.append_cons]
    exact not_awaitsOperand_append powerHypothesis
  | term _ inductionHypothesis => exact inductionHypothesis
  | plus _ _ _ _ _ productHypothesis =>
    rw [List.append_cons]
    exact not_awaitsOperand_append productHypothesis

/-- Tokens that stop before an operand do not end where a phrase ends. -/
theorem length_lt_of_awaitsOperand {tokens rest before behind : List Token}
    (split : tokens ++ rest = before ++ behind) (within : before.length ≤ tokens.length)
    (awaits : AwaitsOperand before) (complete : ¬AwaitsOperand tokens) :
    before.length < tokens.length := by
  refine Nat.lt_of_le_of_ne within fun same => complete ?_
  rw [(List.append_inj split same.symm).1]
  exact awaits

/-! ### Operands in their places -/

/-- The operand stands in the phrase after the tokens before it. Every other operand with the same
tree can stand there in its place: the phrase has the same tree then, and it nests no deeper if the
operand does not. -/
def HoldsOperand (phrase : Phrase) (tokens before operand : List Token) (inner expr : Expr)
    (innerNesting nesting : Nat) : Prop :=
  ∃ behind, tokens = before ++ (operand ++ behind) ∧
    ∀ {other : List Token} {otherNesting : Nat}, Derivation .operand other inner otherNesting →
      ∃ total, Derivation phrase (before ++ (other ++ behind)) expr total ∧
        (otherNesting ≤ innerNesting → total ≤ nesting)

/-- The operand stands in the phrase wherever it comes after tokens that stop before an operand,
even if the phrase is only the front of the tokens. -/
def HoldsAwaited (operand : List Token) (inner : Expr) (innerNesting : Nat) (phrase : Phrase)
    (tokens : List Token) (expr : Expr) (nesting : Nat) : Prop :=
  ∀ {before behind rest : List Token}, tokens ++ rest = before ++ (operand ++ behind) →
    before.length < tokens.length → AwaitsOperand before →
    HoldsOperand phrase tokens before operand inner expr innerNesting nesting

section Awaited

variable {operand : List Token} {inner : Expr} {innerNesting : Nat}

/-- Where a phrase is a part of another one, the operand stands in the whole too. -/
theorem HoldsOperand.within {part whole : Phrase} {tokens before : List Token}
    {expr result : Expr} {nesting : Nat} {grow : Nat → Nat}
    (holds : HoldsOperand part tokens before operand inner expr innerNesting nesting)
    (front back : List Token) (monotone : Monotone grow)
    (wraps : ∀ {tokens : List Token} {nesting : Nat}, Derivation part tokens expr nesting →
      Derivation whole (front ++ (tokens ++ back)) result (grow nesting)) :
    HoldsOperand whole (front ++ (tokens ++ back)) (front ++ before) operand inner result
      innerNesting (grow nesting) := by
  obtain ⟨behind, rfl, replace⟩ := holds
  refine ⟨behind ++ back, by simp, fun otherDerived => ?_⟩
  obtain ⟨total, derived, shallow⟩ := replace otherDerived
  refine ⟨grow total, ?_, fun fits => monotone (shallow fits)⟩
  have wrapped := wraps derived
  simpa using wrapped

/-- At the front of an operand there is no other operand. -/
theorem Derivation.holdsOperand_self {tokens rest behind : List Token} {expr : Expr}
    {nesting : Nat} (innerDerived : Derivation .operand operand inner innerNesting)
    (derived : Derivation .operand tokens expr nesting)
    (split : tokens ++ rest = operand ++ behind) :
    HoldsOperand .operand tokens [] operand inner expr innerNesting nesting := by
  have read := derived.reader_of_ended 0 0 (Nat.le_max_left nesting innerNesting)
    (startsWith_operand rest)
  rw [split, innerDerived.reader_of_ended 0 0 (Nat.le_max_right nesting innerNesting)
    (startsWith_operand behind)] at read
  cases read
  obtain rfl := List.append_cancel_right split
  have same := derived.sum_of_operand.unique innerDerived.sum_of_operand
  refine ⟨[], by simp, fun {other otherNesting} otherDerived => ⟨otherNesting, ?_, fun fits => ?_⟩⟩
  · simpa using otherDerived
  · omega

theorem Derivation.holdsAwaited_singleton {token : Token} {expr : Expr} {nesting : Nat}
    (innerDerived : Derivation .operand operand inner innerNesting)
    (derived : Derivation .operand [token] expr nesting) :
    HoldsAwaited operand inner innerNesting .operand [token] expr nesting := by
  intro before behind rest split inside _
  obtain rfl : before = [] := List.length_eq_zero_iff.mp (Nat.lt_one_iff.mp inside)
  exact innerDerived.holdsOperand_self derived split

theorem HoldsAwaited.wrapped {part whole : Phrase} {tokens : List Token} {expr result : Expr}
    {nesting : Nat} {grow : Nat → Nat}
    (awaited : HoldsAwaited operand inner innerNesting part tokens expr nesting)
    (monotone : Monotone grow)
    (wraps : ∀ {tokens : List Token} {nesting : Nat}, Derivation part tokens expr nesting →
      Derivation whole tokens result (grow nesting)) :
    HoldsAwaited operand inner innerNesting whole tokens result (grow nesting) := by
  intro before behind rest split inside awaits
  have holds := (awaited split inside awaits).within [] [] monotone fun derived => by
    simpa using wraps derived
  simpa using holds

/-- Before a closing parenthesis the operand stands in the phrase that the parenthesis closes. -/
theorem HoldsAwaited.closed {tokens before behind rest : List Token} {closing : Token}
    {expr : Expr} {nesting : Nat}
    (awaited : HoldsAwaited operand inner innerNesting .sum tokens expr nesting)
    (derived : Derivation .sum tokens expr nesting)
    (split : (tokens ++ [closing]) ++ rest = before ++ (operand ++ behind))
    (inside : before.length < (tokens ++ [closing]).length) (awaits : AwaitsOperand before) :
    HoldsOperand .sum tokens before operand inner expr innerNesting nesting := by
  rw [List.length_append] at inside
  rw [List.append_assoc] at split
  exact awaited split (length_lt_of_awaitsOperand split (Nat.le_of_lt_succ inside) awaits
    derived.not_awaitsOperand) awaits

/-- Of two phrases with a sign between them one holds the operand. -/
theorem HoldsAwaited.joined {left right whole : Phrase} {front back : List Token} {sign : Token}
    {leftExpr rightExpr result : Expr} {leftNesting rightNesting : Nat} {grow : Nat → Nat → Nat}
    (leftAwaited : HoldsAwaited operand inner innerNesting left front leftExpr leftNesting)
    (rightAwaited : HoldsAwaited operand inner innerNesting right back rightExpr rightNesting)
    (leftDerived : Derivation left front leftExpr leftNesting)
    (rightDerived : Derivation right back rightExpr rightNesting)
    (leftMonotone : ∀ other, Monotone (grow · other))
    (rightMonotone : ∀ other, Monotone (grow other))
    (joins : ∀ {front back : List Token} {leftNesting rightNesting : Nat},
      Derivation left front leftExpr leftNesting → Derivation right back rightExpr rightNesting →
      Derivation whole (front ++ sign :: back) result (grow leftNesting rightNesting)) :
    HoldsAwaited operand inner innerNesting whole (front ++ sign :: back) result
      (grow leftNesting rightNesting) := by
  intro before behind rest split inside awaits
  by_cases early : before.length ≤ front.length
  · rw [List.append_assoc] at split
    have within := length_lt_of_awaitsOperand split early awaits leftDerived.not_awaitsOperand
    have holds := (leftAwaited split within awaits).within [] (sign :: back)
      (leftMonotone rightNesting) fun derived => joins derived rightDerived
    simpa using holds
  · rw [List.append_cons, List.append_assoc] at split
    have passed : front ++ [sign] <+: before := by
      have starts : front ++ [sign] <+: before ++ (operand ++ behind) := ⟨_, split⟩
      refine List.prefix_of_prefix_length_le starts (List.prefix_append _ _) ?_
      rw [List.length_append]
      exact Nat.lt_of_not_le early
    obtain ⟨later, rfl⟩ := passed
    rw [List.append_assoc _ later, List.append_cancel_left_eq] at split
    have within : later.length < back.length := by
      simp only [List.length_append, List.length_cons, List.length_nil] at inside
      omega
    have holds := (rightAwaited split within (awaitsOperand_of_append awaits)).within
      (front ++ [sign]) [] (rightMonotone leftNesting) fun derived => by
        simpa using joins leftDerived derived
    simpa using holds

/-- An operand that comes where one is awaited is an operand of the phrase, whatever else the phrase
is made of and whatever follows it. -/
theorem Derivation.holdsAwaited (innerDerived : Derivation .operand operand inner innerNesting)
    {phrase : Phrase} {tokens : List Token} {expr : Expr} {nesting : Nat}
    (derived : Derivation phrase tokens expr nesting) :
    HoldsAwaited operand inner innerNesting phrase tokens expr nesting := by
  have deeper : Monotone (· + 1) := fun _ _ => Nat.succ_le_succ
  have leftMax : ∀ other : Nat, Monotone (max · other) := fun other _ _ => max_le_max_right other
  have rightMax : ∀ other : Nat, Monotone (max other) := fun other _ _ => max_le_max_left other
  -- An operand with nothing before it is the awaited one itself. Elsewhere the tokens before the
  -- awaited one lose what the phrase has in front of its part, and a part goes on with the search.
  induction derived with
  | number kind spelled => exact innerDerived.holdsAwaited_singleton (.number kind spelled)
  | constant kind => exact innerDerived.holdsAwaited_singleton (.constant kind)
  | @negation sign _ _ _ minus derived awaited =>
    intro before behind rest split inside awaits
    cases before with
    | nil => exact innerDerived.holdsOperand_self (.negation minus derived) split
    | cons first before =>
      rw [List.cons_append, List.cons_append, List.cons.injEq] at split
      rw [← List.singleton_append] at awaits
      obtain ⟨rfl, split⟩ := split
      have holds := (awaited split (Nat.lt_of_succ_lt_succ inside)
        (awaitsOperand_of_append awaits)).within [sign] [] deeper
        fun derived => by simpa using Derivation.negation minus derived
      simpa using holds
  | @group opening closing _ _ _ opens closes derived awaited =>
    intro before behind rest split inside awaits
    cases before with
    | nil => exact innerDerived.holdsOperand_self (.group opens closes derived) split
    | cons first before =>
      rw [List.cons_append, List.cons_append, List.cons.injEq] at split
      rw [← List.singleton_append] at awaits
      obtain ⟨rfl, split⟩ := split
      exact (awaited.closed derived split (Nat.lt_of_succ_lt_succ inside)
        (awaitsOperand_of_append awaits)).within [opening] [closing] monotone_id
        fun derived => Derivation.group opens closes derived
  | @call name opening closing _ _ _ _ kind opens closes derived awaited =>
    intro before behind rest split inside awaits
    cases before with
    | nil => exact innerDerived.holdsOperand_self (.call kind opens closes derived) split
    | cons first before =>
      simp only [List.cons_append, List.cons.injEq] at split
      obtain ⟨rfl, split⟩ := split
      cases before with
      | nil => exact absurd awaits (not_awaitsOperand_singleton kind rfl)
      | cons second before =>
        simp only [List.cons_append, List.cons.injEq] at split
        obtain ⟨rfl, split⟩ := split
        have later : AwaitsOperand ([name, opening] ++ before) := awaits
        exact (awaited.closed derived split
          (Nat.lt_of_succ_lt_succ (Nat.lt_of_succ_lt_succ inside))
          (awaitsOperand_of_append later)).within [name, opening] [closing] monotone_id
          fun derived => Derivation.call kind opens closes derived
  | base derived awaited => exact awaited.wrapped deeper .base
  | raised raises base power baseAwaited powerAwaited =>
    exact baseAwaited.joined powerAwaited base power (fun other => deeper.comp (leftMax other))
      (fun other => deeper.comp (rightMax other)) (.raised raises)
  | factor derived awaited => exact awaited.wrapped monotone_id .factor
  | times kind joins product power productAwaited powerAwaited =>
    exact productAwaited.joined powerAwaited product power leftMax rightMax (.times kind joins)
  | term derived awaited => exact awaited.wrapped monotone_id .term
  | plus kind joins sum product sumAwaited productAwaited =>
    exact sumAwaited.joined productAwaited sum product leftMax rightMax (.plus kind joins)

end Awaited

/-! ### Words between neighbours -/

/-- The characters that would make the last of the words longer. -/
def lastGoesOn (words : List Token) (char : Char) : Bool :=
  words.getLast?.any fun word => word.kind.goesOn char

/-- From any position on the lexer finds these words in the characters, before anything that does
not make the last one longer. -/
def ScansApart (words : List Token) (chars : List Char) : Prop :=
  ∀ position, ∃ moved, moved.map Token.spelling = words.map Token.spelling ∧
    ScansAs (lastGoesOn words) chars position moved

theorem ScansApart.after_word {kind : TokenKind} {text : List Char} {position : Nat}
    {words : List Token} {chars : List Char} (spelled : kind.Spells text)
    (ended : ∀ next ∈ chars.head?, kind.goesOn next = false) (bare : chars = [] → words = [])
    (scans : ScansApart words chars) :
    ScansApart (⟨kind, String.ofList text, position⟩ :: words) (text ++ chars) := by
  intro start
  obtain ⟨moved, same, backScans⟩ := scans (start + text.length)
  refine ⟨⟨kind, String.ofList text, start⟩ :: moved, ?_, fun remaining found apart => ?_⟩
  · rw [List.map_cons, List.map_cons, same]
    rfl
  · have wordEnded : ∀ next ∈ (chars ++ remaining).head?, kind.goesOn next = false := by
      cases chars with
      | nil =>
        -- Without characters behind it the word is the last one.
        obtain rfl := bare rfl
        exact apart
      | cons next rest => exact ended
    have lastEnded : ∀ next ∈ remaining.head?, lastGoesOn words next = false := by
      cases words with
      | nil => exact fun _ _ => rfl
      | cons word rest => exact apart
    rw [List.append_assoc, Token.scan_of_spells spelled wordEnded, backScans _ _ lastEnded,
      List.length_append, Nat.add_assoc, List.reverse_cons, List.append_assoc,
      List.singleton_append]

/-- What the lexer finds up to the end of the characters depends on nothing before them. -/
theorem exists_scansApart_of_scan {chars : List Char} {position : Nat} {found tokens : List Token}
    (scanned : Token.scan chars position 0 found = .ok tokens) :
    ∃ words, tokens = found.reverse ++ words ++ [Token.stop (position + chars.length)] ∧
      ScansApart words chars := by
  obtain ⟨words, same, scans, _⟩ := Token.exists_words_of_scan
    (motive := fun words chars => ScansApart words chars ∧ (chars = [] → words = []))
    ⟨fun position => ⟨[], rfl, fun _ _ _ => rfl⟩, fun _ => rfl⟩
    (fun blank built => ⟨fun position => by
      obtain ⟨moved, same, backScans⟩ := built.1 (position + 1)
      exact ⟨moved, same, backScans.after_blank blank⟩, nofun⟩)
    (fun spelled ended built => ⟨.after_word spelled ended built.2 built.1, fun empty =>
      absurd (List.append_eq_nil_iff.mp empty).1 spelled.ne_nil⟩)
    scanned
  exact ⟨words, same, scans⟩

/-- Nothing makes an operator or an opening parenthesis longer. -/
theorem lastGoesOn_of_awaitsOperand {words : List Token} (awaits : AwaitsOperand words)
    (char : Char) : lastGoesOn words char = false := by
  unfold lastGoesOn
  cases last_eq : words.getLast? with
  | none => rfl
  | some last =>
    have awaited := awaits last last_eq
    rw [Option.any_some]
    cases kind : last.kind with
    | opening => rfl
    | operator _ => rfl
    | _ =>
      rw [kind] at awaited
      cases awaited

theorem awaitsOperand_of_spelling_eq {words moved : List Token} (awaits : AwaitsOperand words)
    (same : moved.map Token.spelling = words.map Token.spelling) : AwaitsOperand moved := by
  intro last found
  have spelled := congrArg List.getLast? same
  rw [List.getLast?_map, List.getLast?_map, Option.mem_def.mp found, Option.map_some] at spelled
  obtain ⟨other, otherFound, otherSame⟩ := Option.map_eq_some_iff.mp spelled.symm
  have kind_eq : other.kind = last.kind := congrArg Prod.fst otherSame
  rw [← kind_eq]
  exact awaits other otherFound

/-! ### Texts of operands -/

/-- Wherever the characters stand, before anything but a digit or a point, the lexer finds in them
one operand, which stands for this tree and nests this many levels. -/
def IsOperand (chars : List Char) (expr : Expr) (nesting : Nat) : Prop :=
  ∀ position, ∃ words, ScansAs Lexeme.isNumeralChar chars position words ∧
    Derivation .operand words expr nesting

theorem isOperand_plain {value : Float} (finite : value.isFinite = true)
    (positive : Binary.isNegative value = false) :
    IsOperand (Text.plain value).toList (.number value) 0 := by
  intro position
  have scans := scansAs_word (Text.plain_spells finite positive) position
  rw [String.ofList_toList] at scans
  exact ⟨_, scans, .number rfl (Text.read?_plain finite positive)⟩

theorem IsOperand.negate {chars : List Char} {expr : Expr} {nesting : Nat}
    (operand : IsOperand chars expr nesting) (nonempty : chars ≠ []) :
    IsOperand (['-'] ++ chars) expr.negate (nesting + 1) := by
  intro position
  have spelled : (TokenKind.operator .subtract).Spells ['-'] := rfl
  obtain ⟨words, scans, derived⟩ := operand (position + 1)
  exact ⟨_, scans.after_sign spelled rfl nonempty, .negation rfl derived⟩

theorem IsOperand.group {chars : List Char} {expr : Expr} {nesting : Nat}
    (operand : IsOperand chars expr nesting) :
    IsOperand (['('] ++ (chars ++ [')'])) expr (1 + nesting) := by
  intro position
  have opens : TokenKind.opening.Spells ['('] := rfl
  obtain ⟨words, scans, derived⟩ := operand (position + 1)
  have closed := (scans.closed rfl Lexeme.isNumeralChar).after_sign opens rfl (by simp)
  exact ⟨_, closed, .group rfl rfl derived.sum_of_operand⟩

end Expr

namespace Text

open Binary (rank isNegative ofRank infinityRank)

theorem isFinite_of_written {value : Float}
    (written : (value == 0.0) = true ∨ 1e-6 ≤ value.abs ∧ value.abs < 1e21) :
    value.isFinite = true := by
  cases number : value.isNaN with
  | true =>
    have same : value = 0.0 / 0.0 := Binary.eq_of_isNaN number (by decide)
    rw [same] at written
    exact absurd written (by decide)
  | false =>
    cases infinite : value.isInf with
    | true =>
      have beyond : ∀ negative, ¬((ofRank negative infinityRank == 0.0) = true ∨
          1e-6 ≤ (ofRank negative infinityRank).abs ∧
            (ofRank negative infinityRank).abs < 1e21) := by decide
      rw [← Binary.ofRank_rank value, Binary.rank_of_isInf infinite] at written
      exact absurd written (beyond _)
    | false => exact Binary.isFinite_of_number number infinite

/-- The result text of zero, and of a float whose magnitude is from a millionth up to `1e21`, is an
operand: a number, or the negation of one. -/
theorem exists_isOperand_result {value : Float}
    (written : (value == 0.0) = true ∨ 1e-6 ≤ value.abs ∧ value.abs < 1e21) :
    ∃ expr nesting, Expr.IsOperand (result value).toList expr nesting := by
  have finite := isFinite_of_written written
  by_cases zero : rank value = 0
  · have shown : result value = plain 0.0 := by
      rw [result_of_zero finite zero]
      rfl
    rw [shown]
    exact ⟨_, _, Expr.isOperand_plain (by decide) (by decide)⟩
  · have positional : isPositional value = true := by
      rw [Binary.beq_zero_iff finite] at written
      rw [isPositional, Bool.and_eq_true, decide_eq_true_iff, decide_eq_true_iff]
      exact written.resolve_left zero
    have below := (Binary.isFinite_iff value).mp finite
    have magnitude := Binary.isFinite_ofRank false below
    have positive := Binary.isNegative_ofRank false below
    have operand := Expr.isOperand_plain magnitude positive
    rw [toList_result_of_positional finite zero positional]
    cases isNegative value with
    | false => exact ⟨_, _, operand⟩
    | true => exact ⟨_, _, operand.negate (plain_spells magnitude positive).ne_nil⟩

end Text

namespace Engine

open DeskCalculator.Expr

/-! ### Operands between texts -/

/-- Whatever follows a text that stops before an operand, its words stop before one too. -/
theorem exists_scansAs_of_awaitsOperand {front : String} {words : List Token} {place : Nat}
    (lexed : Token.lex front = .ok (words ++ [Token.stop place])) (awaits : AwaitsOperand words) :
    ∃ before, AwaitsOperand before ∧ ScansAs (fun _ => false) front.toList 0 before := by
  obtain ⟨found, same, scansApart⟩ := exists_scansApart_of_scan lexed
  obtain rfl : words = found := (List.append_inj' same rfl).1
  obtain ⟨before, beforeSame, scans⟩ := scansApart 0
  refine ⟨before, awaitsOperand_of_spelling_eq awaits beforeSame, ?_⟩
  refine scans.of_goesOn fun char member => ?_
  rw [lastGoesOn_of_awaitsOperand awaits] at member
  cases member

/-- The words of a text that may stand before anything, of an operand, and of what follows it are
found one after the other. -/
theorem lex_append {front operand back : String} {frontWords words : List Token}
    (frontScans : ScansAs (fun _ => false) front.toList 0 frontWords)
    (scans : ScansAs Lexeme.isNumeralChar operand.toList (0 + front.toList.length) words)
    (ended : ∀ next ∈ back.toList.head?, Lexeme.isNumeralChar next = false) :
    Token.lex (front ++ operand ++ back) =
      Token.scan back.toList (0 + front.toList.length + operand.toList.length) 0
        (words.reverse ++ (frontWords.reverse ++ [])) := by
  unfold Token.lex
  rw [String.toList_append, String.toList_append, List.append_assoc,
    frontScans _ _ fun _ _ => rfl, scans _ _ ended]

/-- In a text that stops before an operand, operands with the same tree can take each other's
place, whatever follows them. -/
theorem Writes.replace {front operand other back : String} {words : List Token} {place : Nat}
    {inner expr : Expr} {innerNesting otherNesting nesting : Nat}
    (lexed : Token.lex front = .ok (words ++ [Token.stop place])) (awaits : AwaitsOperand words)
    (ended : ∀ next ∈ back.toList.head?, Lexeme.isNumeralChar next = false)
    (isOperand : IsOperand operand.toList inner innerNesting)
    (otherIsOperand : IsOperand other.toList inner otherNesting)
    (writes : Writes (front ++ operand ++ back) expr nesting) :
    ∃ total, Writes (front ++ other ++ back) expr total ∧
      (otherNesting ≤ innerNesting → total ≤ nesting) := by
  obtain ⟨before, beforeAwaits, frontScans⟩ := exists_scansAs_of_awaitsOperand lexed awaits
  obtain ⟨inside, insideScans, insideDerived⟩ := isOperand (0 + front.toList.length)
  obtain ⟨otherInside, otherScans, otherDerived⟩ := otherIsOperand (0 + front.toList.length)
  obtain ⟨all, allPlace, allLexed, derived⟩ := writes
  rw [lex_append frontScans insideScans ended] at allLexed
  obtain ⟨behind, allSame, behindScans⟩ := exists_scansApart_of_scan allLexed
  obtain rfl : all = before ++ (inside ++ behind) := by
    simpa using (List.append_inj' allSame rfl).1
  have within : before.length < (before ++ (inside ++ behind)).length := by
    have nonempty := insideDerived.nesting_le_length.2 rfl
    simp only [List.length_append]
    omega
  obtain ⟨_, regroup, replace⟩ :=
    insideDerived.holdsAwaited derived (List.append_nil _) within beforeAwaits
  obtain rfl := List.append_cancel_left (List.append_cancel_left regroup)
  obtain ⟨total, otherWhole, shallow⟩ := replace otherDerived
  -- Behind the other operand the same words stand at other places.
  obtain ⟨moved, movedSame, movedScans⟩ :=
    behindScans (0 + front.toList.length + other.toList.length)
  have scanned := movedScans [] (otherInside.reverse ++ (before.reverse ++ [])) (by simp)
  rw [List.append_nil, ← lex_append frontScans otherScans ended, Token.scan] at scanned
  simp only [List.reverse_cons, List.reverse_append, List.reverse_reverse, List.reverse_nil,
    List.nil_append] at scanned
  refine ⟨total, ⟨_, _, scanned, otherWhole.of_spelling_eq ?_⟩, shallow⟩
  simp only [List.map_append, List.append_assoc, movedSame]

/-- Under one limit both texts are read as the same tree, unless the other operand alone makes its
text too deep. -/
theorem read_replace {engine : Engine} {front operand other back : String} {words : List Token}
    {place : Nat} {inner expr : Expr} {innerNesting otherNesting : Nat}
    (lexed : Token.lex front = .ok (words ++ [Token.stop place])) (awaits : AwaitsOperand words)
    (ended : ∀ next ∈ back.toList.head?, Lexeme.isNumeralChar next = false)
    (isOperand : IsOperand operand.toList inner innerNesting)
    (otherIsOperand : IsOperand other.toList inner otherNesting)
    (read : engine.read (front ++ operand ++ back) = .ok expr) :
    engine.read (front ++ other ++ back) = .ok expr ∨
      innerNesting < otherNesting ∧
        ∃ position, engine.read (front ++ other ++ back) =
          .error (.tooDeep engine.limit position) := by
  obtain ⟨nesting, writes, fits⟩ := exists_writes_of_read read
  obtain ⟨total, otherWrites, shallow⟩ :=
    writes.replace lexed awaits ended isOperand otherIsOperand
  have reads := engine.readsWithin_of_occurs otherWrites.occurs
  by_cases otherFits : total ≤ engine.limit
  · exact .inl (reads.read_iff.mpr otherFits)
  · obtain ⟨position, refused, _⟩ := reads.refused (Nat.lt_of_not_le otherFits)
    refine .inr ⟨Nat.lt_of_not_le fun shallower => ?_, position, refused⟩
    exact otherFits (Nat.le_trans (shallow shallower) fits)

/-- A memory that is zero, or whose magnitude is from a millionth up to `1e21`, is brought back as
one operand. Where a text stops before an operand, and whatever follows except for digits and
points, its result text is read as if it stood between parentheses: as part of the same tree under
the same limit, unless the parentheses alone make the text too deep. -/
theorem read_recalled_memory (engine : Engine) (memory : Float) (front back : String)
    (words : List Token) (place : Nat) (expr : Expr)
    (written : (memory == 0.0) = true ∨ 1e-6 ≤ memory.abs ∧ memory.abs < 1e21)
    (lexed : Token.lex front = .ok (words ++ [Token.stop place])) (awaits : AwaitsOperand words)
    (ended : ∀ next ∈ back.toList.head?, next.isDigit = false ∧ next ≠ '.') :
    (∀ session : Session, session.entry = front → session.memory = memory →
      (session.perform .memoryRecall).entry = front ++ Text.result memory) ∧
    (engine.read (front ++ grouped (Text.result memory) ++ back) = .ok expr →
      engine.read (front ++ Text.result memory ++ back) = .ok expr) ∧
    (engine.read (front ++ Text.result memory ++ back) = .ok expr →
      engine.read (front ++ grouped (Text.result memory) ++ back) = .ok expr ∨
        ∃ position, engine.read (front ++ grouped (Text.result memory) ++ back) =
          .error (.tooDeep engine.limit position)) := by
  obtain ⟨inner, nesting, isOperand⟩ := Text.exists_isOperand_result written
  have isGroup := isOperand.group
  rw [← toList_grouped] at isGroup
  have apart : ∀ next ∈ back.toList.head?, Lexeme.isNumeralChar next = false := by
    intro next head
    obtain ⟨noDigit, noPoint⟩ := ended next head
    simp [Lexeme.isNumeralChar, noDigit, noPoint]
  refine ⟨?_, fun read => ?_, fun read => ?_⟩
  · rintro session rfl rfl
    rfl
  · refine (read_replace lexed awaits apart isGroup isOperand read).resolve_right ?_
    rintro ⟨deeper, _⟩
    omega
  · exact (read_replace lexed awaits apart isOperand isGroup read).imp_right And.right

/-- A negative memory is raised as a whole, and it does not take in the power behind it. -/
theorem read_recalled_memory_power :
    Token.lex "2 ^ " = .ok ([⟨.number, "2", 0⟩, ⟨.operator .raise, "^", 2⟩] ++ [Token.stop 4]) ∧
      (ofLimit 5).read "2 ^ -2.5 ^ 3" = .ok (.binary .raise (.number 2.0)
        (.binary .raise (Expr.number 2.5).negate (.number 3.0))) := by
  have lexed : Token.lex "2 ^ " =
      .ok ([⟨.number, "2", 0⟩, ⟨.operator .raise, "^", 2⟩] ++ [Token.stop 4]) := rfl
  have awaits : AwaitsOperand [⟨.number, "2", 0⟩, ⟨.operator .raise, "^", 2⟩] := by
    rintro last ⟨⟩
    rfl
  have ended : ∀ next ∈ " ^ 3".toList.head?, next.isDigit = false ∧ next ≠ '.' := by
    rintro next ⟨⟩
    exact ⟨rfl, by decide⟩
  have shown : Text.result (-2.5) = "-2.5" := by decide +kernel
  have read : (ofLimit 5).read ("2 ^ " ++ grouped (Text.result (-2.5)) ++ " ^ 3") =
      .ok (.binary .raise (.number 2.0)
        (.binary .raise (Expr.number 2.5).negate (.number 3.0))) := by
    rw [shown]
    rfl
  obtain ⟨_, bare, _⟩ := read_recalled_memory (ofLimit 5) (-2.5) "2 ^ " " ^ 3" _ 4 _
    (.inr (by decide +kernel)) lexed awaits ended
  have bareRead := bare read
  rw [shown] at bareRead
  exact ⟨lexed, bareRead⟩

end Engine

end DeskCalculator
