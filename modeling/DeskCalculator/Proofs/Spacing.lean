/-
This file proves that blanks carry no meaning. The words of an accepted text may
be set with any other gaps of blanks before, between and after them, as long as
words that stand apart stay apart: the lexer finds the same words again, since
no gap that is left out lets a word grow into the next one. The other text then
has the same value, or the same fault at the word with the same index.
-/

import DeskCalculator.Proofs.Composition
import DeskCalculator.Proofs.Places
import Mathlib.Data.List.Chain

namespace DeskCalculator

/-! ### Spacings -/

/-- Words, each after the gap that stands before it. -/
abbrev Spacing := List (String × Token)

namespace Spacing

/-- The words of a spacing. -/
def words (spacing : Spacing) : List Token :=
  spacing.map Prod.snd

/-- The gaps and the words in turn, and one more gap after the last word. -/
def text (last : String) : Spacing → String
  | [] => last
  | (gap, word) :: rest => gap ++ word.text ++ text last rest

/-- The gaps hold blanks only, and two words have a gap between them unless they are adjacent where
they come from. -/
structure KeepsApart (spacing : Spacing) (last : String) : Prop where
  blank : ∀ spaced ∈ spacing, isBlankText spaced.1 = true
  lastBlank : isBlankText last = true
  apart : spacing.IsChain fun first second =>
    second.1 = "" → first.2.position + first.2.text.length = second.2.position

/-- The words with one space between them. -/
def oneSpace : List Token → Spacing
  | [] => []
  | word :: rest => ("", word) :: rest.map fun next => (" ", next)

theorem words_oneSpace (words : List Token) : (oneSpace words).words = words := by
  cases words <;> simp [oneSpace, Spacing.words, Function.comp_def]

theorem oneSpace_keepsApart (words : List Token) {last : String}
    (lastBlank : isBlankText last = true) : (oneSpace words).KeepsApart last where
  blank := by
    cases words <;> simp [oneSpace, isBlankText, isBlank, blankRanges]
  lastBlank := lastBlank
  apart := by
    cases words with
    | nil => exact .nil
    | cons word rest =>
      have spaced : ∀ next ∈ rest.map fun next => (" ", next), next.1 ≠ "" := by simp
      refine List.Pairwise.isChain (List.pairwise_cons.mpr ⟨?_, ?_⟩)
      · exact fun next member empty => absurd empty (spaced next member)
      · rw [List.pairwise_map]
        exact List.pairwise_of_forall fun _ next empty =>
          absurd (show " " = "" from empty) (by decide)

theorem text_oneSpace (word : Token) (rest : List Token) (last : String) :
    (oneSpace (word :: rest)).text last =
      " ".intercalate ((word :: rest).map Token.text) ++ last := by
  unfold oneSpace
  induction rest generalizing word with
  | nil => simp [text]
  | cons next rest inductionHypothesis =>
    have shorter := inductionHypothesis next
    rw [text, String.empty_append] at shorter
    calc text last (oneSpace (word :: next :: rest))
        = word.text ++ " " ++
            (next.text ++ text last (rest.map fun other => (" ", other))) := by
          simp [oneSpace, text, String.append_assoc]
      _ = " ".intercalate ((word :: next :: rest).map Token.text) ++ last := by
          rw [shorter, ← String.append_assoc, ← String.intercalate_cons_of_ne_nil (by simp)]
          rfl

/-- A listing is the words with one space between them and before the mark for the end. -/
theorem exists_listing_eq {words : List Token} (inside : ∀ word ∈ words, word.isStop = false)
    (place : Nat) :
    ∃ last, isBlankText last = true ∧
      Token.listing (words ++ [Token.stop place]) = (oneSpace words).text last ++ "<fin>" := by
  cases words with
  | nil => exact ⟨"", rfl, rfl⟩
  | cons word rest =>
    have shown_eq : (word :: rest).map Token.shown = (word :: rest).map Token.text := by
      refine List.map_congr_left fun other member => ?_
      rw [Token.shown, inside other member]
      rfl
    refine ⟨" ", rfl, ?_⟩
    have apart : " ".intercalate ((word :: rest).map Token.text ++ ["<fin>"]) =
        " ".intercalate ((word :: rest).map Token.text) ++ " " ++ "<fin>" :=
      String.intercalate_append_of_ne_nil (List.cons_ne_nil _ _) (List.cons_ne_nil _ _)
    rw [Token.listing, List.map_append, shown_eq, text_oneSpace]
    exact apart

/-! ### The words are found again -/

theorem goesOn_of_isBlank {char : Char} (blank : isBlank char = true) (kind : TokenKind) :
    kind.goesOn char = false := by
  have noWordChar := Expr.isWordChar_of_isBlank blank
  rw [Expr.isWordChar, Bool.or_eq_false_iff, Bool.or_eq_false_iff] at noWordChar
  cases kind with
  | number => exact noWordChar.1.1
  | constant constant => exact noWordChar.1.2
  | function function => exact noWordChar.2
  | _ => rfl

/-- What stands behind a word of a spacing does not make the word longer: a blank never does, and
without a gap the next word does not. -/
theorem goesOn_head {kind : TokenKind} {spacing : Spacing} {last : String}
    (blank : ∀ spaced ∈ spacing, isBlankText spaced.1 = true)
    (lastBlank : isBlankText last = true)
    (spelled : ∀ spaced ∈ spacing, spaced.2.kind.Spells spaced.2.text.toList)
    (apart : ∀ second ∈ spacing.head?, second.1 = "" →
      ∀ next ∈ second.2.text.toList.head?, kind.goesOn next = false) :
    ∀ next ∈ (spacing.text last).toList.head?, kind.goesOn next = false := by
  intro next head
  have blank_head : ∀ gap, isBlankText gap = true → next ∈ gap.toList.head? →
      kind.goesOn next = false := fun gap gapBlank member =>
    goesOn_of_isBlank (List.all_eq_true.mp gapBlank next (List.mem_of_mem_head? member)) kind
  cases spacing with
  | nil => exact blank_head last lastBlank head
  | cons second rest =>
    obtain ⟨gap, word⟩ := second
    rw [text, String.toList_append, String.toList_append, List.append_assoc] at head
    by_cases empty : gap = ""
    · subst empty
      have nonempty := (spelled ("", word) List.mem_cons_self).ne_nil
      rw [String.toList_empty, List.nil_append, List.head?_append_of_ne_nil _ nonempty] at head
      exact apart ("", word) rfl rfl next head
    · have nonempty : gap.toList ≠ [] := fun none => empty (String.toList_eq_nil_iff.mp none)
      rw [List.head?_append_of_ne_nil _ nonempty] at head
      exact blank_head gap (blank (gap, word) List.mem_cons_self) head

/-- The lexer finds the words of a spacing in its text if no two of them grow together where their
gap is left out. -/
theorem scansAnywhere_text {spacing : Spacing} {last : String}
    (blank : ∀ spaced ∈ spacing, isBlankText spaced.1 = true)
    (lastBlank : isBlankText last = true)
    (spelled : ∀ spaced ∈ spacing, spaced.2.kind.Spells spaced.2.text.toList)
    (apart : spacing.IsChain fun first second => second.1 = "" →
      ∀ next ∈ second.2.text.toList.head?, first.2.kind.goesOn next = false) :
    Expr.ScansAnywhere spacing.words (spacing.text last).toList := by
  induction spacing with
  | nil =>
    intro position
    have nothing : Expr.ScansAs Expr.isWordChar [] (position + last.toList.length) [] :=
      fun _ _ _ => rfl
    refine ⟨[], rfl, ?_⟩
    have scans := Expr.ScansAs.after_blanks (List.all_eq_true.mp lastBlank) nothing
    rwa [List.append_nil] at scans
  | cons spaced rest inductionHypothesis =>
    obtain ⟨gap, word⟩ := spaced
    obtain ⟨gapBlank, blank⟩ := List.forall_mem_cons.mp blank
    obtain ⟨wordSpelled, spelled⟩ := List.forall_mem_cons.mp spelled
    obtain ⟨headApart, apart⟩ := List.isChain_cons.mp apart
    have behind := inductionHypothesis blank spelled apart
    have ended := goesOn_head blank lastBlank spelled headApart
    have found : Expr.ScansAnywhere
        (⟨word.kind, String.ofList word.text.toList, word.position⟩ :: Spacing.words rest)
        (word.text.toList ++ (text last rest).toList) := behind.after_word wordSpelled ended
    rw [String.ofList_toList] at found
    intro position
    obtain ⟨moved, same, scans⟩ := found (position + gap.toList.length)
    refine ⟨moved, same, ?_⟩
    rw [text, String.append_assoc, String.toList_append, String.toList_append]
    exact Expr.ScansAs.after_blanks (List.all_eq_true.mp gapBlank) scans

/-- What stands behind a word of a partition does not make it longer, be it another word. -/
theorem goesOn_of_adjacent {chars : List Char} {words : List Token} {place : Nat}
    (partition : Token.Partition chars words place) {first second : Token}
    (firstMember : first ∈ words) (secondMember : second ∈ words)
    (adjacent : first.position + first.text.length = second.position) :
    ∀ next ∈ second.text.toList.head?, first.kind.goesOn next = false := by
  intro next head
  refine partition.maximal first firstMember next ?_
  have positive := partition.length_pos secondMember
  rw [partition.copied second secondMember, List.head?_take, if_neg positive.ne'] at head
  rwa [adjacent, ← List.head?_drop]

/-- What the lexer finds in the text of a spacing of the words of an accepted text. -/
theorem KeepsApart.exists_lex {chars : List Char} {words : List Token} {place : Nat}
    (partition : Token.Partition chars words place) {spacing : Spacing} {last : String}
    (same : spacing.words = words) (keeps : spacing.KeepsApart last) :
    ∃ moved movedPlace, Token.lex (spacing.text last) = .ok (moved ++ [Token.stop movedPlace]) ∧
      moved.map Token.spelling = words.map Token.spelling := by
  subst same
  have member : ∀ spaced ∈ spacing, spaced.2 ∈ spacing.words := fun spaced =>
    List.mem_map_of_mem
  have apart : spacing.IsChain fun first second => second.1 = "" →
      ∀ next ∈ second.2.text.toList.head?, first.2.kind.goesOn next = false := by
    refine keeps.apart.imp_of_mem_imp fun first second firstMember secondMember adjacent empty => ?_
    exact goesOn_of_adjacent partition (member _ firstMember) (member _ secondMember)
      (adjacent empty)
  obtain ⟨moved, spelled, scans⟩ := scansAnywhere_text keeps.blank keeps.lastBlank
    (fun spaced inside => partition.spelled _ (member spaced inside)) apart 0
  exact ⟨moved, _, scans.lex, spelled⟩

end Spacing

/-! ### The same outcome at other places -/

/-- The second outcome is the first one at other places: the same success, or the same fault; and
a fault that points at one of the tokens points at the token with the same index. -/
inductive SameAt {α : Type} (tokens moved : List Token) : Except Fault α → Except Fault α → Prop
  where
  | found (value : α) : SameAt tokens moved (.ok value) (.ok value)
  | math (cause : MathFault) : SameAt tokens moved (.error (.math cause)) (.error (.math cause))
  | grammar {index : Nat} {token other : Token} (cause : GrammarFault)
      (there : tokens[index]? = some token) (here : moved[index]? = some other) :
      SameAt tokens moved (.error (.grammar cause token.position))
        (.error (.grammar cause other.position))
  | depth {index : Nat} {token other : Token} (limit : Nat)
      (there : tokens[index]? = some token) (here : moved[index]? = some other) :
      SameAt tokens moved (.error (.tooDeep limit token.position))
        (.error (.tooDeep limit other.position))

/-- Tokens that are spelled alike are the same tokens moved to other places. -/
theorem Token.exists_move {tokens moved : List Token}
    (increasing : tokens.Pairwise fun first second => first.position < second.position)
    (same : moved.map Token.spelling = tokens.map Token.spelling) :
    ∃ places, moved = tokens.map (Token.move places) := by
  induction tokens generalizing moved with
  | nil => exact ⟨id, List.map_eq_nil_iff.mp same⟩
  | cons token rest inductionHypothesis =>
    obtain ⟨before, increasing⟩ := List.pairwise_cons.mp increasing
    obtain ⟨first, others, rfl, firstSame, same⟩ := List.map_eq_cons_iff.mp same
    obtain ⟨places, rfl⟩ := inductionHypothesis increasing same
    refine ⟨fun place => if place = token.position then first.position else places place, ?_⟩
    rw [List.map_cons]
    congr 1
    · have sameKind : first.kind = token.kind := congrArg Prod.fst firstSame
      have sameText : first.text = token.text := congrArg Prod.snd firstSame
      rw [Token.move, if_pos rfl, ← sameKind, ← sameText]
    · refine List.map_congr_left fun other member => ?_
      have different : other.position ≠ token.position := (before other member).ne'
      simp only [Token.move, different, if_false]

theorem SameAt.bind {α β : Type} {tokens moved : List Token} {outcome other : Except Fault α}
    {next : α → Except Fault β}
    (placeless : ∀ value, (∃ found, next value = .ok found) ∨
      ∃ cause, next value = .error (.math cause))
    (same : SameAt tokens moved outcome other) :
    SameAt tokens moved (outcome.bind next) (other.bind next) := by
  cases same with
  | found value =>
    show SameAt tokens moved (next value) (next value)
    obtain ⟨found, next_eq⟩ | ⟨cause, next_eq⟩ := placeless value
    · rw [next_eq]
      exact .found found
    · rw [next_eq]
      exact .math cause
  | math cause => exact .math cause
  | grammar cause there here => exact .grammar cause there here
  | depth limit there here => exact .depth limit there here

/-- Words that are spelled alike are read alike, wherever they and the end after them stand. -/
theorem Expr.ofTokens_sameAt (requested : Nat) {words moved : List Token} {place movedPlace : Nat}
    (inside : ∀ word ∈ words, word.isStop = false)
    (increasing : (words ++ [Token.stop place]).Pairwise
      fun first second => first.position < second.position)
    (same : moved.map Token.spelling = words.map Token.spelling) :
    SameAt (words ++ [Token.stop place]) (moved ++ [Token.stop movedPlace])
      (ofTokens requested (words ++ [Token.stop place]))
      (ofTokens requested (moved ++ [Token.stop movedPlace])) := by
  obtain ⟨places, moved_eq⟩ : ∃ places, moved ++ [Token.stop movedPlace] =
      (words ++ [Token.stop place]).map (Token.move places) := by
    refine Token.exists_move increasing ?_
    rw [List.map_append, List.map_append, same]
    rfl
  have ends : ∀ other, (Token.stop other).isStop = true := fun _ => rfl
  have movedRead : ofTokens requested (moved ++ [Token.stop movedPlace]) =
      moveOutcome places id (ofTokens requested (words ++ [Token.stop place])) := by
    rw [List.map_append] at moved_eq
    obtain ⟨rfl, stop_eq⟩ := List.append_inj' moved_eq rfl
    obtain rfl : movedPlace = places place :=
      congrArg Token.position (List.singleton_inj.mp stop_eq)
    rw [ofTokens_append_stop inside (ends _), ofTokens_append_stop ?_ (ends _)]
    · exact ofBody_move _ place words
    · exact List.forall_mem_map.mpr inside
  rw [movedRead]
  cases read : ofTokens requested (words ++ [Token.stop place]) with
  | ok expr => exact .found expr
  | error fault =>
    obtain ⟨before, token, rest, obstacle, split, _, rfl, _⟩ :=
      exists_refusal inside (ends place) read
    have there : (words ++ [Token.stop place])[before.length]? = some token := by
      rw [split]
      simp
    have here : (moved ++ [Token.stop movedPlace])[before.length]? = some (token.move places) := by
      rw [moved_eq, List.getElem?_map, there]
      rfl
    cases obstacle with
    | grammar cause => exact .grammar cause there here
    | depth => exact .depth _ there here

/-! ### Texts that differ in their blanks -/

/-- The two texts have the same words in the same order, and under every limit and in every mode
they have the same value, or the same fault at the word with the same index. -/
def EvaluatesAlike (text other : String) : Prop :=
  ∃ tokens moved, Token.lex text = .ok tokens ∧ Token.lex other = .ok moved ∧
    moved.map Token.spelling = tokens.map Token.spelling ∧
    ∀ (engine : Engine) (mode : AngleMode),
      SameAt tokens moved (engine.evaluate text mode) (engine.evaluate other mode)

/-- A text with the words of an accepted text and any blanks between them, where only words that
are adjacent in the accepted text may be adjacent, evaluates like the accepted text. The listing of
the accepted words up to the mark for the end is such a text. -/
theorem evaluatesAlike_of_spacing (text : String) (words : List Token) (place : Nat)
    (lexed : Token.lex text = .ok (words ++ [Token.stop place])) :
    (∀ (spacing : Spacing) (last : String), spacing.words = words → spacing.KeepsApart last →
      EvaluatesAlike text (spacing.text last)) ∧
    ∃ shown, Token.listing (words ++ [Token.stop place]) = shown ++ "<fin>" ∧
      EvaluatesAlike text shown := by
  have lexing := Token.lex_isLexing text
  rw [lexed] at lexing
  obtain ⟨found, found_eq, partition⟩ := lexing
  obtain ⟨rfl, stop_eq⟩ := List.append_inj' found_eq rfl
  obtain rfl : place = text.toList.length :=
    congrArg Token.position (List.singleton_inj.mp stop_eq)
  have inside : ∀ word ∈ words, word.isStop = false := fun word member =>
    partition.isStop_eq_false member
  have alike : ∀ (spacing : Spacing) (last : String), spacing.words = words →
      spacing.KeepsApart last → EvaluatesAlike text (spacing.text last) := by
    intro spacing last same keeps
    obtain ⟨moved, movedPlace, movedLexed, spelled⟩ := keeps.exists_lex partition same
    refine ⟨_, _, lexed, movedLexed, ?_, fun engine mode => ?_⟩
    · rw [List.map_append, List.map_append, spelled]
      rfl
    · rw [Engine.evaluate_eq_bind, Engine.evaluate_eq_bind]
      refine SameAt.bind (Engine.value_cases mode) ?_
      have read : ∀ {text tokens}, Token.lex text = .ok tokens →
          engine.read text = Expr.ofTokens engine.limit tokens := by
        intro text tokens lexed
        rw [Engine.read, Engine.tokens, lexed]
        rfl
      rw [read lexed, read movedLexed]
      exact Expr.ofTokens_sameAt engine.limit inside partition.increasing_append_stop spelled
  obtain ⟨last, lastBlank, listing_eq⟩ := Spacing.exists_listing_eq inside text.toList.length
  exact ⟨alike, _, listing_eq,
    alike _ last (Spacing.words_oneSpace words) (Spacing.oneSpace_keepsApart words lastBlank)⟩

/-- The words of `2+(-PI`, whose parenthesis is not closed. -/
def unclosedSum : List Token :=
  [⟨.number, "2", 0⟩, ⟨.operator .add, "+", 1⟩, ⟨.opening, "(", 2⟩, ⟨.operator .subtract, "-", 3⟩,
    ⟨.constant .pi, "PI", 4⟩]

/-- With other blanks around the words the end moves, and the fault that blames it moves along. -/
theorem evaluatesAlike_unclosedSum :
    Token.lex "2+(-PI" = .ok (unclosedSum ++ [Token.stop 6]) ∧
      EvaluatesAlike "2+(-PI" " 2 +(- PI " ∧
      (Engine.ofLimit 4).evaluate "2+(-PI" .radians = .error (.grammar .unclosedGroup 6) ∧
      (Engine.ofLimit 4).evaluate " 2 +(- PI " .radians = .error (.grammar .unclosedGroup 10) := by
  have lexed : Token.lex "2+(-PI" = .ok (unclosedSum ++ [Token.stop 6]) := by rfl
  have keeps : Spacing.KeepsApart ([" ", " ", "", "", " "].zip unclosedSum) " " :=
    ⟨by decide, by decide, by decide⟩
  have alike := (evaluatesAlike_of_spacing "2+(-PI" unclosedSum 6 lexed).1 _ " " rfl keeps
  exact ⟨lexed, alike, rfl, rfl⟩

end DeskCalculator
