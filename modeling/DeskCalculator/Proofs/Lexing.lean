/-
This file proves that the lexer cuts a text into its longest lexemes and loses
nothing. The words of the vocabulary are described by the texts they are spelled
with and by the characters that would make them longer. A partition of the
characters before some place consists of words that stand there letter for
letter, do not overlap, cannot be made longer, and leave out blanks only. The
lexer returns such a partition of the whole text; or it stops at a run of
letters or a character outside the vocabulary, after a partition of everything
before it.
-/

import DeskCalculator.Token.Lexer
import Mathlib.Data.List.TakeWhile

namespace DeskCalculator

open Lexeme (isNumeralChar)

/-! ### Spellings -/

/-- The texts with which words of this kind are spelled. -/
def TokenKind.Spells : TokenKind → List Char → Prop
  | .number, text => ∃ digit more, text = digit :: more ∧ digit.isDigit = true ∧
    ∀ char ∈ more, isNumeralChar char = true
  | .operator sign, text => text = [sign.symbol]
  | .opening, text => text = ['(']
  | .closing, text => text = [')']
  | .constant word, text => text = word.name.toList
  | .function word, text => text = word.name.toList
  | .stop, _ => False

/-- The characters that would make a word of this kind longer. -/
def TokenKind.goesOn : TokenKind → Char → Bool
  | .number => isNumeralChar
  | .constant _ => Char.isUpper
  | .function _ => Char.isLower
  | _ => fun _ => false

theorem TokenKind.Spells.ne_nil {kind : TokenKind} {text : List Char}
    (spelled : kind.Spells text) : text ≠ [] := by
  rintro rfl
  cases kind with
  | number =>
    obtain ⟨_, _, equal, _⟩ := spelled
    cases equal
  | function word => cases word <;> cases spelled
  | constant word => cases word <;> cases spelled
  | _ => cases spelled

/-- The text is a run of characters of one class, and what remains does not go on with it. -/
structure IsRun (isMember : Char → Bool) (text remaining : List Char) : Prop where
  nonempty : text ≠ []
  members : ∀ char ∈ text, isMember char = true
  ended : ∀ next ∈ remaining.head?, isMember next = false

/-- The text, which stands before the remaining characters, is no word: a run of capitals that is
no constant, a run of small letters that is no function, or a character that is no blank, digit,
letter, operator or parenthesis. -/
def IsForeign (text remaining : List Char) : Prop :=
  (IsRun Char.isUpper text remaining ∧ ∀ constant : Constant, text ≠ constant.name.toList) ∨
  (IsRun Char.isLower text remaining ∧ ∀ function : UnaryFunction, text ≠ function.name.toList) ∨
  ∃ char : Char, text = [char] ∧ isBlank char = false ∧ char.isDigit = false ∧
    char.isUpper = false ∧ char.isLower = false ∧
    (∀ operator : Operator, char ≠ operator.symbol) ∧ char ≠ '(' ∧ char ≠ ')'

/-! ### What is read at one place -/

theorem isRun_takeWhile {isMember : Char → Bool} {char : Char} (member : isMember char = true)
    (rest : List Char) :
    IsRun isMember (char :: rest.takeWhile isMember) (rest.dropWhile isMember) where
  nonempty := List.cons_ne_nil _ _
  members := by
    intro other belongs
    rcases List.mem_cons.mp belongs with rfl | later
    · exact member
    · exact List.mem_takeWhile_imp later
  ended := by
    intro next head
    have notMember := List.head?_dropWhile_not isMember rest
    rw [Option.mem_def.mp head] at notMember
    simpa using notMember

theorem Constant.ofName?_eq_some {text : String} {constant : Constant}
    (found : ofName? text = some constant) : text = constant.name := by
  have same := List.find?_some found
  exact (of_decide_eq_true same).symm

theorem Constant.ofName?_eq_none {text : String} (missing : ofName? text = none)
    (constant : Constant) : text ≠ constant.name := by
  rintro rfl
  cases constant <;> cases missing

theorem UnaryFunction.ofName?_eq_some {text : String} {function : UnaryFunction}
    (found : ofName? text = some function) : text = function.name := by
  have same := List.find?_some found
  exact (of_decide_eq_true same).symm

theorem UnaryFunction.ofName?_eq_none {text : String} (missing : ofName? text = none)
    (function : UnaryFunction) : text ≠ function.name := by
  rintro rfl
  rw [ofName?_name] at missing
  cases missing

theorem Operator.ofSymbol?_eq_some {char : Char} {operator : Operator}
    (found : ofSymbol? char = some operator) : char = operator.symbol := by
  unfold ofSymbol? at found
  split at found <;> cases found <;> rfl

theorem Operator.ofSymbol?_eq_none {char : Char} (missing : ofSymbol? char = none)
    (operator : Operator) : char ≠ operator.symbol := by
  rintro rfl
  rw [ofSymbol?_symbol] at missing
  cases missing

namespace Lexeme

/-- What a lexeme says about the characters at the place where it was read. -/
def Describes (input : List Char) : Lexeme → Prop
  | blank => ∀ char ∈ input.head?, isBlank char = true
  | word kind text => kind.Spells text ∧ ∃ remaining, input = text ++ remaining ∧
    ∀ next ∈ remaining.head?, kind.goesOn next = false
  | unknown text => ∃ remaining, input = text ++ remaining ∧ IsForeign text remaining

theorem ofLetters_describes {kind? : String → Option TokenKind} {isMember : Char → Bool}
    {text remaining : List Char} (run : IsRun isMember text remaining)
    (known : ∀ kind, kind? (String.ofList text) = some kind →
      kind.Spells text ∧ kind.goesOn = isMember)
    (foreign : kind? (String.ofList text) = none → IsForeign text remaining) :
    (ofLetters kind? text).Describes (text ++ remaining) := by
  unfold ofLetters
  split
  · rename_i kind found
    obtain ⟨spelled, goesOn⟩ := known kind found
    refine ⟨spelled, remaining, rfl, ?_⟩
    rw [goesOn]
    exact run.ended
  · rename_i missing
    exact ⟨remaining, rfl, foreign missing⟩

theorem ofSign_describes {char : Char} (rest : List Char) (visible : isBlank char = false)
    (digit : char.isDigit = false) (upper : char.isUpper = false)
    (lower : char.isLower = false) : (ofSign char).Describes (char :: rest) := by
  unfold ofSign
  split
  · exact ⟨rfl, rest, rfl, fun _ _ => rfl⟩
  · exact ⟨rfl, rest, rfl, fun _ _ => rfl⟩
  · rename_i notOpening notClosing
    split
    · rename_i operator found
      rw [Operator.ofSymbol?_eq_some found]
      exact ⟨rfl, rest, rfl, fun _ _ => rfl⟩
    · rename_i missing
      exact ⟨rest, rfl, .inr (.inr ⟨char, rfl, visible, digit, upper, lower,
        Operator.ofSymbol?_eq_none missing, notOpening, notClosing⟩)⟩

theorem read_describes (char : Char) (rest : List Char) :
    (Lexeme.read char rest).Describes (char :: rest) := by
  have split : ∀ isMember : Char → Bool,
      char :: rest = (char :: rest.takeWhile isMember) ++ rest.dropWhile isMember := by
    intro isMember
    rw [List.cons_append, List.takeWhile_append_dropWhile]
  unfold Lexeme.read
  split
  · rename_i blank
    intro other head
    cases head
    exact blank
  · rename_i visible
    split
    · rename_i digit
      have member : isNumeralChar char = true := by
        rw [isNumeralChar, digit, Bool.true_or]
      exact ⟨⟨char, _, rfl, digit, fun _ => List.mem_takeWhile_imp⟩, _, split _,
        (isRun_takeWhile member rest).ended⟩
    · rename_i digit
      split
      · rename_i upper
        rw [split Char.isUpper]
        have run := isRun_takeWhile upper rest
        refine ofLetters_describes run ?_ ?_
        · intro kind found
          obtain ⟨constant, same, rfl⟩ := Option.map_eq_some_iff.mp found
          refine ⟨?_, rfl⟩
          rw [TokenKind.Spells, ← Constant.ofName?_eq_some same, String.toList_ofList]
        · intro missing
          refine .inl ⟨run, fun constant same => ?_⟩
          refine Constant.ofName?_eq_none (Option.map_eq_none_iff.mp missing) constant ?_
          rw [same, String.ofList_toList]
      · rename_i upper
        split
        · rename_i lower
          rw [split Char.isLower]
          have run := isRun_takeWhile lower rest
          refine ofLetters_describes run ?_ ?_
          · intro kind found
            obtain ⟨function, same, rfl⟩ := Option.map_eq_some_iff.mp found
            refine ⟨?_, rfl⟩
            rw [TokenKind.Spells, ← UnaryFunction.ofName?_eq_some same, String.toList_ofList]
          · intro missing
            refine .inr (.inl ⟨run, fun function same => ?_⟩)
            refine UnaryFunction.ofName?_eq_none (Option.map_eq_none_iff.mp missing) function ?_
            rw [same, String.ofList_toList]
        · rename_i lower
          exact ofSign_describes rest (Bool.eq_false_iff.mpr visible)
            (Bool.eq_false_iff.mpr digit) (Bool.eq_false_iff.mpr upper)
            (Bool.eq_false_iff.mpr lower)

end Lexeme

namespace Token

/-! ### Steps of the lexer -/

/-- The characters that a lexeme covers are passed over. -/
theorem scan_covered {chars : List Char} {covered : Nat} (inside : covered ≤ chars.length)
    (position : Nat) (found : List Token) :
    scan chars position covered found = scan (chars.drop covered) (position + covered) 0 found := by
  induction covered generalizing chars position with
  | zero => rfl
  | succ covered inductionHypothesis =>
    cases chars with
    | nil => cases inside
    | cons char rest =>
      rw [scan, inductionHypothesis (Nat.le_of_succ_le_succ inside), List.drop_succ_cons,
        Nat.add_right_comm]
      rfl

theorem scan_of_blank {char : Char} {rest : List Char} (read : Lexeme.read char rest = .blank)
    (position : Nat) (found : List Token) :
    scan (char :: rest) position 0 found = scan rest (position + 1) 0 found := by
  rw [scan, read]

theorem scan_of_word {char : Char} {rest text remaining : List Char} {kind : TokenKind}
    (read : Lexeme.read char rest = .word kind text) (split : char :: rest = text ++ remaining)
    (nonempty : text ≠ []) (position : Nat) (found : List Token) :
    scan (char :: rest) position 0 found =
      scan remaining (position + text.length) 0
        (⟨kind, String.ofList text, position⟩ :: found) := by
  cases text with
  | nil => exact absurd rfl nonempty
  | cons first more =>
    obtain rfl : char = first := (List.cons.inj split).1
    obtain rfl : rest = more ++ remaining := (List.cons.inj split).2
    rw [scan, read]
    dsimp only
    rw [List.length_cons, Nat.add_sub_cancel, scan_covered (by simp), List.drop_left,
      Nat.add_assoc, Nat.add_comm 1]

theorem scan_of_unknown {char : Char} {rest text : List Char}
    (read : Lexeme.read char rest = .unknown text) (position : Nat) (found : List Token) :
    scan (char :: rest) position 0 found =
      .error (.unknownWord (String.ofList text) position) := by
  rw [scan, read]

/-- What the lexer returns comes about from the end of the text, by one blank or one longest word
at a time. -/
theorem exists_words_of_scan {motive : List Token → List Char → Prop} (nil : motive [] [])
    (blank : ∀ {char : Char} {words : List Token} {chars : List Char}, isBlank char = true →
      motive words chars → motive words (char :: chars))
    (word : ∀ {kind : TokenKind} {text : List Char} {position : Nat} {words : List Token}
      {chars : List Char}, kind.Spells text → (∀ next ∈ chars.head?, kind.goesOn next = false) →
      motive words chars → motive (⟨kind, String.ofList text, position⟩ :: words) (text ++ chars))
    {chars : List Char} {position : Nat} {found tokens : List Token}
    (scanned : scan chars position 0 found = .ok tokens) :
    ∃ words, tokens = found.reverse ++ words ++ [stop (position + chars.length)] ∧
      motive words chars := by
  -- A lexeme may cover many characters at once, so the induction is on how many there are.
  induction length_eq : chars.length using Nat.strong_induction_on
    generalizing chars position found with
  | _ length inductionHypothesis =>
    subst length_eq
    cases chars with
    | nil =>
      rw [scan, Except.ok.injEq] at scanned
      rw [← scanned]
      exact ⟨[], by simp, nil⟩
    | cons char rest =>
      have described := Lexeme.read_describes char rest
      cases read : Lexeme.read char rest with
      | blank =>
        rw [read] at described
        rw [scan_of_blank read] at scanned
        obtain ⟨words, same, built⟩ := inductionHypothesis _ (Nat.lt_succ_self _) scanned rfl
        rw [Nat.add_assoc, Nat.add_comm 1] at same
        exact ⟨words, same, blank (described char rfl) built⟩
      | word kind text =>
        rw [read] at described
        obtain ⟨spelled, remaining, split, ended⟩ := described
        rw [scan_of_word read split spelled.ne_nil] at scanned
        have shorter : remaining.length < (char :: rest).length := by
          rw [split, List.length_append]
          exact Nat.lt_add_of_pos_left (List.length_pos_iff.mpr spelled.ne_nil)
        obtain ⟨words, rfl, built⟩ := inductionHypothesis _ shorter scanned rfl
        rw [split]
        refine ⟨⟨kind, String.ofList text, position⟩ :: words, ?_, word spelled ended built⟩
        simp [Nat.add_assoc]
      | unknown text =>
        rw [scan_of_unknown read] at scanned
        cases scanned

/-! ### Partitions -/

/-- The words partition the characters before a place of the text: they stand there in order and
letter for letter, none overlaps another or could be made longer, and only blanks are left out. -/
structure Partition (chars : List Char) (words : List Token) (place : Nat) : Prop where
  apart : words.Pairwise fun first second =>
    first.position + first.text.length ≤ second.position
  inside : ∀ word ∈ words, word.position + word.text.length ≤ place
  copied : ∀ word ∈ words,
    word.text.toList = (chars.drop word.position).take word.text.length
  spelled : ∀ word ∈ words, word.kind.Spells word.text.toList
  maximal : ∀ word ∈ words, ∀ next ∈ chars[word.position + word.text.length]?,
    word.kind.goesOn next = false
  blank : ∀ index < place, (∀ word ∈ words,
      ¬(word.position ≤ index ∧ index < word.position + word.text.length)) →
    ∀ char ∈ chars[index]?, isBlank char = true

namespace Partition

theorem empty (chars : List Char) : Partition chars [] 0 where
  apart := .nil
  inside := by simp
  copied := by simp
  spelled := by simp
  maximal := by simp
  blank := by simp

/-- A blank at the end of the characters is left out. -/
theorem skip {chars : List Char} {words : List Token} {place : Nat}
    (partition : Partition chars words place)
    (blank : ∀ char ∈ chars[place]?, isBlank char = true) :
    Partition chars words (place + 1) where
  apart := partition.apart
  inside word member := Nat.le_succ_of_le (partition.inside word member)
  copied := partition.copied
  spelled := partition.spelled
  maximal := partition.maximal
  blank := by
    intro index before outside
    rcases Nat.lt_succ_iff_lt_or_eq.mp before with earlier | rfl
    · exact partition.blank index earlier outside
    · exact blank

/-- A word at the end of the characters is one more word of the partition. -/
theorem add {chars text remaining : List Char} {words : List Token} {place : Nat}
    {kind : TokenKind} (partition : Partition chars words place)
    (split : chars.drop place = text ++ remaining) (spelled : kind.Spells text)
    (ended : ∀ next ∈ remaining.head?, kind.goesOn next = false) :
    Partition chars (words ++ [⟨kind, String.ofList text, place⟩]) (place + text.length) where
  apart := by
    rw [List.pairwise_append]
    refine ⟨partition.apart, List.pairwise_singleton _ _, ?_⟩
    intro word member last isLast
    rw [List.mem_singleton.mp isLast]
    exact partition.inside word member
  inside := by
    intro word member
    rcases List.mem_append.mp member with earlier | last
    · exact Nat.le_add_right_of_le (partition.inside word earlier)
    · rw [List.mem_singleton.mp last, String.length_ofList]
  copied := by
    intro word member
    rcases List.mem_append.mp member with earlier | last
    · exact partition.copied word earlier
    · rw [List.mem_singleton.mp last]
      simp only [String.toList_ofList, String.length_ofList]
      rw [split, List.take_left]
  spelled := by
    intro word member
    rcases List.mem_append.mp member with earlier | last
    · exact partition.spelled word earlier
    · rw [List.mem_singleton.mp last]
      simpa only [String.toList_ofList] using spelled
  maximal := by
    intro word member
    rcases List.mem_append.mp member with earlier | last
    · exact partition.maximal word earlier
    · rw [List.mem_singleton.mp last]
      simp only [String.length_ofList]
      rwa [← List.head?_drop, ← List.drop_drop, split, List.drop_left]
  blank := by
    intro index before outside
    have beforePlace : index < place := by
      refine Nat.lt_of_not_le fun after => ?_
      refine outside ⟨kind, String.ofList text, place⟩ (List.mem_append_right _ (.head _))
        ⟨after, ?_⟩
      simpa only [String.length_ofList] using before
    exact partition.blank index beforePlace fun word member =>
      outside word (List.mem_append_left _ member)

theorem isStop_eq_false {chars : List Char} {words : List Token} {place : Nat}
    (partition : Partition chars words place) {word : Token} (member : word ∈ words) :
    word.isStop = false := by
  rw [isStop, decide_eq_false_iff_not]
  intro stops
  have spelled := partition.spelled word member
  rw [stops] at spelled
  exact spelled

theorem length_pos {chars : List Char} {words : List Token} {place : Nat}
    (partition : Partition chars words place) {word : Token} (member : word ∈ words) :
    0 < word.text.length := by
  rw [← String.length_toList]
  exact List.length_pos_iff.mpr (partition.spelled word member).ne_nil

theorem increasing {chars : List Char} {words : List Token} {place : Nat}
    (partition : Partition chars words place) :
    words.Pairwise fun first second => first.position < second.position := by
  refine partition.apart.imp_of_mem fun member _ before => ?_
  have positive := partition.length_pos member
  omega

/-- The end of a text stands after all its words. -/
theorem increasing_append_stop {chars : List Char} {words : List Token} {place : Nat}
    (partition : Partition chars words place) :
    (words ++ [stop place]).Pairwise fun first second => first.position < second.position := by
  rw [List.pairwise_append]
  refine ⟨partition.increasing, List.pairwise_singleton _ _, ?_⟩
  intro word member last isLast
  have inside := partition.inside word member
  have positive := partition.length_pos member
  rw [List.mem_singleton.mp isLast]
  show word.position < place
  omega

end Partition

/-! ### Runs of the lexer -/

/-- What the lexer returns for the characters of a text: a partition of them all, with the end
after it; or a foreign word, with a partition of everything before it. -/
def IsLexing (chars : List Char) : Except Fault (List Token) → Prop
  | .ok tokens => ∃ words, tokens = words ++ [stop chars.length] ∧
    Partition chars words chars.length
  | .error fault => ∃ (text : List Char) (position : Nat) (remaining : List Char)
      (words : List Token), fault = .unknownWord (String.ofList text) position ∧
    chars.drop position = text ++ remaining ∧ IsForeign text remaining ∧
    Partition chars words position

/-- From the end of a partition on, the lexer completes it. -/
theorem scan_isLexing {chars : List Char} {words : List Token} {place : Nat}
    (partition : Partition chars words place) (within : place ≤ chars.length) :
    IsLexing chars (scan (chars.drop place) place 0 words.reverse) := by
  -- A lexeme may cover many characters at once, so the induction is on how many are left.
  induction remains : chars.length - place using Nat.strong_induction_on
    generalizing words place with
  | _ length inductionHypothesis =>
    subst remains
    cases rest : chars.drop place with
    | nil =>
      have finished : place = chars.length :=
        Nat.le_antisymm within (List.drop_eq_nil_iff.mp rest)
      subst finished
      rw [scan, List.reverse_cons, List.reverse_reverse]
      exact ⟨words, rfl, partition⟩
    | cons char behind =>
      have before : place < chars.length := by
        refine Nat.lt_of_not_le fun after => ?_
        rw [List.drop_eq_nil_of_le after] at rest
        cases rest
      have described := Lexeme.read_describes char behind
      cases read : Lexeme.read char behind with
      | blank =>
        rw [read] at described
        have blank : ∀ next ∈ chars[place]?, isBlank next = true := by
          rw [← List.head?_drop, rest]
          exact described
        have next : chars.drop (place + 1) = behind := by
          rw [← List.drop_drop, rest]
          rfl
        rw [scan_of_blank read, ← next]
        exact inductionHypothesis _ (by omega) (partition.skip blank) before rfl
      | word kind text =>
        rw [read] at described
        obtain ⟨spelled, remaining, split, ended⟩ := described
        have nonempty := spelled.ne_nil
        have next : chars.drop (place + text.length) = remaining := by
          rw [← List.drop_drop, rest, split, List.drop_left]
        have length_eq : chars.length - place = text.length + remaining.length := by
          rw [← List.length_drop, rest, split, List.length_append]
        have positive := List.length_pos_iff.mpr nonempty
        rw [scan_of_word read split nonempty, ← next]
        have grown := partition.add (rest.trans split) spelled ended
        have lexed := inductionHypothesis _ (by omega) grown (by omega) rfl
        rwa [List.reverse_append, List.reverse_singleton, List.singleton_append] at lexed
      | unknown text =>
        rw [read] at described
        obtain ⟨remaining, split, foreign⟩ := described
        rw [scan_of_unknown read]
        exact ⟨text, place, remaining, words, rfl, rest.trans split, foreign, partition⟩

/-- What the lexer returns is a lexing of the text. -/
theorem lex_isLexing (text : String) : IsLexing text.toList (lex text) :=
  scan_isLexing (Partition.empty text.toList) (Nat.zero_le _)

/-- The words of an accepted text partition it, in strictly increasing order, and one end token
stands after them. A refused text is partitioned up to the first foreign word, which the fault
shows in full and at its place. -/
theorem lex_partitions (text : String) :
    match lex text with
    | .ok tokens => ∃ words, tokens = words ++ [stop text.length] ∧
        (∀ word ∈ words, word.isStop = false) ∧
        words.Pairwise (fun first second => first.position < second.position) ∧
        Partition text.toList words text.length
    | .error fault => ∃ (word : List Char) (position : Nat) (remaining : List Char)
          (words : List Token), fault = .unknownWord (String.ofList word) position ∧
        text.toList.drop position = word ++ remaining ∧ IsForeign word remaining ∧
        Partition text.toList words position := by
  have lexed := lex_isLexing text
  cases result : lex text with
  | ok tokens =>
    rw [result] at lexed
    obtain ⟨words, rfl, partition⟩ := lexed
    rw [String.length_toList] at partition
    refine ⟨words, ?_, fun word member => partition.isStop_eq_false member, partition.increasing,
      partition⟩
    rw [String.length_toList]
  | error fault =>
    rw [result] at lexed
    exact lexed

end Token

end DeskCalculator
