import Propositional.Assignment

/-!
What a truth table shows of its formula: that no assignment makes it true, that all do,
or which of them do.
-/

namespace Propositional

set_option autoImplicit false

inductive Classification where
  | unsatisfiable
  | tautology
  | satisfiable (witnesses : List Assignment)
  deriving DecidableEq

namespace Classification

def isSatisfiable : Classification → Bool
  | .unsatisfiable => false
  | .tautology => true
  | .satisfiable _ => true

def witnesses : Classification → List Assignment
  | .satisfiable witnesses => witnesses
  | _ => []

def name : Classification → String
  | .unsatisfiable => "Unsatisfiable"
  | .tautology => "Tautology"
  | .satisfiable _ => "Satisfiable"

end Classification

end Propositional
