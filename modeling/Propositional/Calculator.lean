import Propositional.Enumeration
import Propositional.Settings
import Propositional.Source
import Propositional.Table

/-!
A calculator builds truth tables by its settings. Before each row its terminator, if it has
one, is asked whether to stop. A table is only returned complete: the first failure, on
whatever row, takes its place.
-/

namespace Propositional

set_option autoImplicit false

structure Terminator where
  answers : Nat → Bool
  asked : Nat

/-- The terminator that gives the answers of a script, and always the same one after them. -/
def Terminator.ofScript (script : List Bool) (afterwards : Bool) : Terminator :=
  ⟨fun index => script.getD index afterwards, 0⟩

structure Calculator where
  settings : Settings
  terminator : Option Terminator
  checks : Nat

namespace Calculator

def ofSettings (settings : Settings) : Calculator := ⟨settings, none, 0⟩

/-- Asks the terminator whether to stop. Without a terminator nothing is asked or counted. -/
def check (calculator : Calculator) : Bool × Calculator :=
  match calculator.terminator with
  | none => (false, calculator)
  | some terminator =>
      (terminator.answers terminator.asked,
        { calculator with
          terminator := some { terminator with asked := terminator.asked + 1 }
          checks := calculator.checks + 1 })

def declare (calculator : Calculator) (names : List String) : Except Failure Variables :=
  Variables.declare calculator.settings.variableLimit.value names

def infer (calculator : Calculator) (tokens : List Token) : Except Failure Variables :=
  Variables.infer calculator.settings.variableLimit.value tokens

def declareOrInfer (calculator : Calculator) (names : Option (List String))
    (tokens : List Token) : Except Failure Variables :=
  match names with
  | some names => calculator.declare names
  | none => calculator.infer tokens

def formula (calculator : Calculator) (tokens : List Token) : Except Failure Formula :=
  Formula.ofTokens tokens calculator.settings.allowTrailing.value

def evaluate (calculator : Calculator) (valuation : Valuation) (tokens : List Token) :
    Except Failure Bool :=
  evaluateTokens valuation tokens calculator.settings.allowTrailing.value

/-- Evaluates on the assignments that an enumeration has left, behind rows that are kept in
reverse order. -/
def tabulateFrom (evaluate : Assignment → Except Failure Bool) (calculator : Calculator)
    (enumeration : Enumeration) (rows : List Row) : Except Failure (List Row) × Calculator :=
  match _ : enumeration.next? with
  | none => (.ok rows.reverse, calculator)
  | some (assignment, later) =>
      match calculator.check with
      | (true, calculator) => (.error .terminated, calculator)
      | (false, calculator) =>
          match evaluate assignment with
          | .error failure => (.error failure, calculator)
          | .ok value => tabulateFrom evaluate calculator later (⟨assignment, value⟩ :: rows)
termination_by enumeration.remaining
decreasing_by exact Enumeration.remaining_next ‹_›

def tabulate (evaluate : Assignment → Except Failure Bool) (calculator : Calculator)
    (domain : Variables) : Except Failure Table × Calculator :=
  let (rows, calculator) := calculator.tabulateFrom evaluate (.start domain) []
  (rows.map fun rows => ⟨domain, rows⟩, calculator)

/-- The table of the formula of some tokens. Under the strategy `tree` a fault in the tokens is
found before the terminator is asked anything. -/
def tableOfTokens (calculator : Calculator) (tokens : List Token) (domain : Variables) :
    Except Failure Table × Calculator :=
  match calculator.settings.strategy.value with
  | .reparse =>
      calculator.tabulate
        (fun assignment => calculator.evaluate assignment.valuation tokens) domain
  | .tree =>
      match calculator.formula tokens with
      | .error failure => (.error failure, calculator)
      | .ok formula =>
          calculator.tabulate (fun assignment => formula.evaluate assignment.valuation) domain

/-- The table of a formula. Faults in its text are found first, then faults in the names. -/
def table (calculator : Calculator) (source : Source) (names : Option (List String)) :
    Except Failure Table × Calculator :=
  match (do
    let tokens ← source.toTokens
    return (tokens, ← calculator.declareOrInfer names tokens)) with
  | .error failure => (.error failure, calculator)
  | .ok (tokens, domain) => calculator.tableOfTokens tokens domain

def classify (calculator : Calculator) (source : Source) (names : Option (List String)) :
    Except Failure Classification × Calculator :=
  let (table, calculator) := calculator.table source names
  (table.map Table.classification, calculator)

end Calculator

end Propositional
