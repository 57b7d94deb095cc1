import Propositional.CommandLine.Names
import Propositional.Settings

/-!
What the arguments of the command line ask for: a formula and names if they are given, whether
to show the table, and the settings. A setting whose value is out of bounds is refused, the
strategy before the limit on variables.
-/

namespace Propositional

set_option autoImplicit false

namespace CommandLine

structure Arguments where
  formula : Option String := none
  names : Option String := none
  table : Bool := false
  allowTrailing : Bool := false
  strategy : Option String := none
  variableLimit : Option Nat := none
  deriving DecidableEq

structure Request where
  formula : Option String
  names : Option (List String)
  showTable : Bool
  settings : Settings

inductive SettingFault where
  | strategy
  | variableLimit
  deriving DecidableEq

namespace SettingFault

def message : SettingFault → String
  | .strategy =>
      let bounds := Settings.standard.strategy
      "strategy requires a value between " ++ bounds.least.name ++ " and " ++ bounds.greatest.name
  | .variableLimit =>
      let bounds := Settings.standard.variableLimit
      "variable_limit requires a value between " ++ toString bounds.least ++ " and " ++
        toString bounds.greatest

end SettingFault

def choose {Value : Type} [LE Value] [DecidableLE Value] (fault : SettingFault)
    (setting : Setting Value) (value : Option Value) : Except SettingFault (Setting Value) :=
  match value with
  | none => .ok setting
  | some value => (setting.set? value).elim (.error fault) .ok

namespace Arguments

def strategyValue (arguments : Arguments) : Except SettingFault (Option Strategy) :=
  match arguments.strategy with
  | none => .ok none
  | some name => (Strategy.ofName? name).elim (.error .strategy) (.ok ∘ some)

def settings (arguments : Arguments) : Except SettingFault Settings := do
  let standard := Settings.standard
  let chosen ← arguments.strategyValue
  let strategy ← choose .strategy standard.strategy chosen
  let limit ← choose .variableLimit standard.variableLimit arguments.variableLimit
  return {
    allowTrailing := { standard.allowTrailing with value := arguments.allowTrailing }
    strategy := strategy
    variableLimit := limit }

end Arguments

def Request.ofArguments (arguments : Arguments) : Except SettingFault Request := do
  let settings ← arguments.settings
  return {
    formula := arguments.formula
    names := arguments.names.map splitNames
    showTable := arguments.table
    settings := settings }

end CommandLine

end Propositional
