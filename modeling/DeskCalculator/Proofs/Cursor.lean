/-
This file reads tokens with a cursor. The list of tokens stays whole, a cursor
tells which of them comes next, a counter tells how many levels are open, and
every step is noted with both. Nothing in the rules keeps the cursor inside the
list, the counter above zero or the calls of the rules from piling up: a walk
that looks behind the last token comes to nothing, and so does one that needs
more calls at once than it is given.
-/

import DeskCalculator.Proofs.Grammar

namespace DeskCalculator.Expr

/-! ### Walks -/

/-- What can be done at one place. -/
inductive Action where
  /-- The token under the cursor is looked at. -/
  | look
  /-- The cursor moves on to the next token. -/
  | advance
  /-- One more level is opened. -/
  | enter
  /-- A level is closed. -/
  | leave
  deriving DecidableEq

/-- An action, with the cursor and the number of open levels before it. -/
structure Step where
  action : Action
  cursor : Nat
  nesting : Nat
  deriving DecidableEq

/-- The state of a walk: the index of the next token, the number of open levels, and the steps so
far, the last one first. -/
structure Walker where
  cursor : Nat := 0
  nesting : Nat := 0
  steps : List Step := []

namespace Walker

/-- The walker with one more step noted. -/
def note (walker : Walker) (action : Action) : Walker :=
  { walker with steps := ⟨action, walker.cursor, walker.nesting⟩ :: walker.steps }

/-- The walker at the next token. -/
def advanced (walker : Walker) : Walker :=
  { walker.note .advance with cursor := walker.cursor + 1 }

/-- The walker with one more level open. -/
def entered (walker : Walker) : Walker :=
  { walker.note .enter with nesting := walker.nesting + 1 }

/-- The walker with one level less open, if there is one. -/
def left (walker : Walker) : Walker :=
  { walker.note .leave with nesting := walker.nesting - 1 }

end Walker

/-- A walk finds a result or a fault, and leaves the walker in some state either way. One that looks
behind the last token comes to nothing, and so does one that runs out of calls. -/
abbrev Walk (Result : Type) := ExceptT Fault (StateT Walker Option) Result

namespace Walk

variable {Result : Type}

/-- What a walk comes to from a state. -/
def outcome? (walk : Walk Result) (walker : Walker) : Option (Except Fault Result × Walker) :=
  walk.run.run walker

section

variable (limit : Nat) (tokens : List Token)

/-- Looks at the token under the cursor. -/
def look : Walk Token := do
  let walker ← get
  let token ← (tokens[walker.cursor]? : Option Token)
  set (walker.note .look)
  return token

/-- Takes the token under the cursor. The cursor does not pass an end token. -/
def advance : Walk Token := do
  let token ← look tokens
  if token.isStop then return token
  modify Walker.advanced
  return token

/-- The operator under the cursor, if it is one of these. -/
def operatorAmong (operators : Operator → Bool) : Walk (Option Operator) := do
  match (← look tokens).kind with
  | .operator operator => return if operators operator then some operator else none
  | _ => return none

/-- Refuses the token under the cursor. -/
def refuse (cause : GrammarFault) : Walk Result := do
  throw (.grammar cause (← look tokens).position)

/-- Passes over a token of the given kind. -/
def pass (kind : TokenKind) (cause : GrammarFault) : Walk Unit := do
  if (← look tokens).kind ≠ kind then refuse tokens cause
  let _ ← advance tokens

/-- Opens a level, unless as many are open as the limit allows. -/
def enter : Walk Unit := do
  let walker ← get
  if limit ≤ walker.nesting then throw (.tooDeep limit (← look tokens).position)
  modify Walker.entered

/-- Closes a level, whatever was found on it. -/
def leave : StateT Walker Option Unit :=
  modify Walker.left

/-- The walk that comes to nothing. -/
def stuck : Walk Result :=
  (failure : StateT Walker Option (Except Fault Result))

/-! ### Rules -/

mutual

/-- Reads a phrase of a kind, with so many calls of rules inside each other. -/
def phrase : Phrase → Nat → Walk Expr
  | _, 0 => stuck
  | .sum, depth + 1 => do chainFrom isSumOperator .product depth (← phrase .product depth)
  | .product, depth + 1 => do chainFrom isProductOperator .power depth (← phrase .power depth)
  | .power, depth + 1 => do
    enter limit tokens
    (do
      let outcome ← (raised depth).run
      leave
      return outcome : StateT Walker Option (Except Fault Expr))
  | .operand, depth + 1 => do
    let token ← advance tokens
    match token.kind with
    | .number => numberOf token
    | .constant constant => return .number constant.value
    | .operator .subtract =>
      enter limit tokens
      (do
        let outcome ← (phrase .operand depth).run
        leave
        return outcome.map negate : StateT Walker Option (Except Fault Expr))
    | .opening =>
      let expr ← phrase .sum depth
      pass tokens .closing .unclosedGroup
      return expr
    | .function function =>
      pass tokens .opening .missingArgument
      let argument ← phrase .sum depth
      pass tokens .closing .unclosedArgument
      return .call function argument
    -- The cursor has stayed on an end token, so that is the token to refuse.
    | .stop => refuse tokens .unexpectedEnd
    | .operator _ | .closing => throw (.grammar (.unexpectedToken token.text) token.position)

/-- Goes on with a chain after its left part, as long as one of its operators follows. -/
def chainFrom : (Operator → Bool) → Phrase → Nat → Expr → Walk Expr
  | _, _, 0, _ => stuck
  | joins, part, depth + 1, left => do
    match ← operatorAmong tokens joins with
    | none => return left
    | some operator =>
      let _ ← advance tokens
      chainFrom joins part depth (.binary operator left (← phrase part depth))

/-- Reads an operand and its exponent, if it has one, on a level that is open. -/
def raised : Nat → Walk Expr
  | 0 => stuck
  | depth + 1 => do
    let base ← phrase .operand depth
    match ← operatorAmong tokens Phrase.power.goesOn with
    | none => return base
    | some _ =>
      let _ ← advance tokens
      return .binary .raise base (← phrase .power depth)

end

/-- Reads a sum that only the end of the input follows. -/
def whole (depth : Nat) : Walk Expr := do
  let expr ← phrase limit tokens .sum depth
  if (← look tokens).kind ≠ .stop then refuse tokens .trailingToken
  return expr

end

end Walk

/-- Reads a list of tokens with a cursor, and tells the steps of the walk, the last one first. The
list has to end with an end token, which is looked up before the walk. -/
def walkTokens (depth requestedLimit : Nat) (tokens : List Token) :
    Option (Except Fault Expr × List Step) :=
  match tokens.getLast? with
  | none => some (.error (.grammar .missingEnd 0), [])
  | some last =>
    if last.isStop then
      ((Walk.whole (clampLimit requestedLimit) tokens depth).outcome? {}).map
        fun (outcome, walker) => (outcome, walker.steps)
    else some (.error (.grammar .missingEnd last.positionBehind), [])

end DeskCalculator.Expr
