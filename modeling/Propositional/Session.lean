import Propositional.Calculator

/-!
Sessions: steps taken one after the other on one calculator, each with an answer. Only the
changes of a setting and of the terminator, and the questions put to the terminator, last
beyond their step.
-/

namespace Propositional

set_option autoImplicit false

inductive Change where
  | allowTrailing (value : Bool)
  | strategy (value : Strategy)
  | variableLimit (value : Nat)

/-- The part of a setting that is written when no regard is paid to its bounds. -/
inductive Part where
  | least
  | greatest
  | value

inductive Step where
  | set (change : Change)
  | force (part : Part) (change : Change)
  | settings
  | terminator (terminator : Terminator)
  | check
  | tokenize (source : Source)
  | declare (names : List String)
  | infer (source : Source)
  | formula (source : Source)
  | evaluate (source : Source) (valuation : Valuation)
  | table (source : Source) (names : Option (List String))
  | classify (source : Source) (names : Option (List String))

inductive Answer where
  | done
  | set (accepted : Bool)
  | settings (settings : Settings)
  | terminate (stop : Bool)
  | tokens (tokens : List Token)
  | domain (domain : Variables)
  | formula (formula : Formula)
  | value (value : Bool)
  | table (table : Table)
  | classification (classification : Classification)
  | failure (failure : Failure)

def Answer.ofExcept {Value : Type} (answer : Value → Answer) : Except Failure Value → Answer
  | .ok found => answer found
  | .error reason => .failure reason

def Setting.write {Value : Type} (setting : Setting Value) (part : Part) (value : Value) :
    Setting Value :=
  match part with
  | .least => { setting with least := value }
  | .greatest => { setting with greatest := value }
  | .value => { setting with value := value }

namespace Settings

def set? (settings : Settings) : Change → Option Settings
  | .allowTrailing value =>
      (settings.allowTrailing.set? value).map ({ settings with allowTrailing := · })
  | .strategy value => (settings.strategy.set? value).map ({ settings with strategy := · })
  | .variableLimit value =>
      (settings.variableLimit.set? value).map ({ settings with variableLimit := · })

def write (settings : Settings) (part : Part) : Change → Settings
  | .allowTrailing value =>
      { settings with allowTrailing := settings.allowTrailing.write part value }
  | .strategy value => { settings with strategy := settings.strategy.write part value }
  | .variableLimit value =>
      { settings with variableLimit := settings.variableLimit.write part value }

end Settings

namespace Calculator

def perform (calculator : Calculator) : Step → Answer × Calculator
  | .set change =>
      match calculator.settings.set? change with
      | some settings => (.set true, { calculator with settings := settings })
      | none => (.set false, calculator)
  | .force part change =>
      (.done, { calculator with settings := calculator.settings.write part change })
  | .settings => (.settings calculator.settings, calculator)
  | .terminator terminator => (.done, { calculator with terminator := some terminator })
  | .check =>
      let (stop, calculator) := calculator.check
      (.terminate stop, calculator)
  | .tokenize source => (.ofExcept .tokens source.toTokens, calculator)
  | .declare names => (.ofExcept .domain (calculator.declare names), calculator)
  | .infer source => (.ofExcept .domain (source.toTokens >>= calculator.infer), calculator)
  | .formula source => (.ofExcept .formula (source.toTokens >>= calculator.formula), calculator)
  | .evaluate source valuation =>
      (.ofExcept .value (source.toTokens >>= calculator.evaluate valuation), calculator)
  | .table source names =>
      let (table, calculator) := calculator.table source names
      (.ofExcept .table table, calculator)
  | .classify source names =>
      let (classification, calculator) := calculator.classify source names
      (.ofExcept .classification classification, calculator)

def performAll (calculator : Calculator) : List Step → List Answer × Calculator
  | [] => ([], calculator)
  | step :: steps =>
      let (answer, calculator) := calculator.perform step
      let (answers, calculator) := calculator.performAll steps
      (answer :: answers, calculator)

end Calculator

end Propositional
