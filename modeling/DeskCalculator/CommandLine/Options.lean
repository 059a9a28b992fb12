/-
This file reads the arguments of the command line. Options start with two
dashes, the arguments after a lone pair of dashes are no options, and the one
argument that is no option is the expression. Options that are not given may be
set by variables of the environment.
-/

import DeskCalculator.Angle
import DeskCalculator.Text.Count

namespace DeskCalculator

/-! ### Options -/

/-- How much of its work the program is to log. Lines of the log carry the time of day, and are no
part of what it reports. -/
inductive LogLevel where
  | error
  | warn
  | info
  | debug
  | trace
  deriving DecidableEq

/-- The level that a word names. -/
def LogLevel.ofName? : String → Option LogLevel
  | "error" => some error
  | "warn" => some warn
  | "info" => some info
  | "debug" => some debug
  | "trace" => some trace
  | _ => none

/-- What the arguments ask for. -/
structure Options where
  expression? : Option String := none
  mode? : Option AngleMode := none
  user? : Option String := none
  limit? : Option Nat := none
  logLevel? : Option LogLevel := none
  json : Bool := false
  tree : Bool := false
  tokens : Bool := false

/-- Reasons for which the arguments ask for no work: they are refused, or they ask for the help
text or the version. -/
inductive Diversion where
  | refused
  | help
  | version
  deriving DecidableEq

namespace Options

/-! ### Setting options -/

/-- The options that take a value. -/
inductive Setting where
  | mode
  | user
  | limit
  | logLevel
  deriving DecidableEq

/-- The options without a value. -/
inductive Flag where
  | json
  | tree
  | tokens
  deriving DecidableEq

/-- An option as its name says. -/
inductive Named where
  | setting (setting : Setting)
  | flag (flag : Flag)
  | diversion (diversion : Diversion)

/-- The option with a name. -/
def named? : String → Option Named
  | "mode" => some (.setting .mode)
  | "user" => some (.setting .user)
  | "max-depth" => some (.setting .limit)
  | "log-level" => some (.setting .logLevel)
  | "json" => some (.flag .json)
  | "ast" => some (.flag .tree)
  | "tokens" => some (.flag .tokens)
  | "help" => some (.diversion .help)
  | "version" => some (.diversion .version)
  | _ => none

/-- Puts a value in an empty place. -/
def fill {Value : Type} (place : Option Value) (value? : Option Value) : Option (Option Value) :=
  match place, value? with
  | none, some value => some (some value)
  | _, _ => none

/-- Sets an option to the value that a text spells. An option is set at most once. -/
def set? (options : Options) (setting : Setting) (text : String) : Option Options :=
  match setting with
  | .mode =>
    (fill options.mode? (AngleMode.read text).toOption).map fun mode? => { options with mode? }
  | .user => (fill options.user? (some text)).map fun user? => { options with user? }
  | .limit => (fill options.limit? (readCount? text)).map fun limit? => { options with limit? }
  | .logLevel =>
    (fill options.logLevel? (LogLevel.ofName? text)).map fun logLevel? =>
      { options with logLevel? }

/-- Raises a flag. A flag is raised at most once. -/
def raise? (options : Options) (flag : Flag) : Option Options :=
  match flag with
  | .json => if options.json then none else some { options with json := true }
  | .tree => if options.tree then none else some { options with tree := true }
  | .tokens => if options.tokens then none else some { options with tokens := true }

/-- Takes an argument as the expression. There is at most one. -/
def setExpression? (options : Options) (text : String) : Option Options :=
  (fill options.expression? (some text)).map fun expression? => { options with expression? }

/-! ### Reading arguments -/

/-- What an argument is by its form. -/
inductive Argument where
  | plain
  | separator
  | long (name : String) (value? : Option String)
  | short (letter : Char)

/-- Splits a long option at its first equals sign. -/
def splitLong (chars : List Char) : Argument :=
  let name := chars.takeWhile (· != '=')
  match chars.drop name.length with
  | [] => .long (String.ofList name) none
  | _ :: value => .long (String.ofList name) (some (String.ofList value))

/-- The form of an argument. A single dash is plain. -/
def Argument.ofText (text : String) : Argument :=
  match text.toList with
  | ['-', '-'] => .separator
  | '-' :: '-' :: rest => splitLong rest
  | '-' :: letter :: _ => .short letter
  | _ => .plain

/-- What an option of one letter asks for; no other letter is an option. -/
def ofLetter (letter : Char) : Diversion :=
  match letter with
  | 'h' => .help
  | 'V' => .version
  | _ => .refused

/-- What the next argument may be: anything, the value of an option, or an expression only. -/
inductive Expected where
  | anything
  | value (setting : Setting)
  | expression

/-- How far the arguments are read: the options so far and what may come next. -/
structure Progress where
  options : Options := {}
  expected : Expected := .anything

/-- Goes on if an option could be set, and refuses the arguments if it could not. -/
def goOn (options? : Option Options) (expected : Expected) : Except Diversion Progress :=
  match options? with
  | some options => .ok ⟨options, expected⟩
  | none => .error .refused

/-- Reads a long option. -/
def readLong (options : Options) (name : String) (value? : Option String) :
    Except Diversion Progress :=
  match named? name, value? with
  | some (.diversion diversion), none => .error diversion
  | some (.flag flag), none => goOn (options.raise? flag) .anything
  | some (.setting setting), some value => goOn (options.set? setting value) .anything
  | some (.setting setting), none => .ok ⟨options, .value setting⟩
  | _, _ => .error .refused

/-- Reads the next argument. The value of an option is a plain argument of its own, or stands
after an equals sign. -/
def readArgument (progress : Progress) (text : String) : Except Diversion Progress :=
  match progress.expected, Argument.ofText text with
  | .expression, _ => goOn (progress.options.setExpression? text) .expression
  | .value setting, .plain => goOn (progress.options.set? setting text) .anything
  | .value _, _ => .error .refused
  | .anything, .plain => goOn (progress.options.setExpression? text) .anything
  | .anything, .separator => .ok ⟨progress.options, .expression⟩
  | .anything, .long name value? => readLong progress.options name value?
  | .anything, .short letter => .error (ofLetter letter)

/-- Reads the arguments from left to right. The first one that is refused or asks for a text
decides. -/
def readArguments (arguments : List String) : Except Diversion Options :=
  match arguments.foldlM readArgument {} with
  | .error diversion => .error diversion
  | .ok ⟨_, .value _⟩ => .error .refused
  | .ok ⟨options, _⟩ => .ok options

/-! ### The environment -/

/-- The variables of the environment that set options. -/
structure Environment where
  mode? : Option String := none
  limit? : Option String := none
  logLevel? : Option String := none

/-- Sets an option that is not given to the value of its variable. -/
def setMissing? (options : Options) (given : Bool) (setting : Setting)
    (fallback? : Option String) : Option Options :=
  match given, fallback? with
  | false, some text => options.set? setting text
  | _, _ => some options

/-- Sets the options that are not given by the environment. -/
def complete? (options : Options) (environment : Environment) : Option Options := do
  let options ← options.setMissing? options.mode?.isSome .mode environment.mode?
  let options ← options.setMissing? options.limit?.isSome .limit environment.limit?
  options.setMissing? options.logLevel?.isSome .logLevel environment.logLevel?

/-- Reads arguments and environment. -/
def read (arguments : List String) (environment : Environment) : Except Diversion Options :=
  match readArguments arguments with
  | .error diversion => .error diversion
  | .ok options =>
    match options.complete? environment with
    | some options => .ok options
    | none => .error .refused

end Options

end DeskCalculator
