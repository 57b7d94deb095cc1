import Propositional.Formula.Basic

/-!
Assignments pair variables with values and keep the order of the pairs. Where a variable
is listed twice, its first pair counts.
-/

namespace Propositional

set_option autoImplicit false

structure Assignment where
  pairs : List (Variable × Bool)
  deriving DecidableEq

namespace Assignment

def valuation (assignment : Assignment) : Valuation :=
  fun name => assignment.pairs.lookup name

def values (assignment : Assignment) : List Bool := assignment.pairs.map Prod.snd

def displayPair (pair : Variable × Bool) : String :=
  pair.1.toString ++ ": " ++ (if pair.2 then "true" else "false")

/-- The pairs between braces, as in `{p: true, q: false}`. -/
def display (assignment : Assignment) : String :=
  "\x7b" ++ String.intercalate ", " (assignment.pairs.map displayPair) ++ "\x7d"

end Assignment

end Propositional
