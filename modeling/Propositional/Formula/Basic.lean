import Propositional.Connective
import Propositional.Failure

/-!
Formulas as trees, the variables that occur in them and their value on a valuation.
Evaluation visits the operands from the left to the right and visits all of them: a
value that is already decided by the left operand does not hide a variable of the right.
-/

namespace Propositional

set_option autoImplicit false

inductive Formula where
  | letter (name : Variable)
  | not (operand : Formula)
  | binary (connective : Connective) (left right : Formula)
  deriving DecidableEq

/-- A valuation gives values to some of the variables. -/
abbrev Valuation := Variable → Option Bool

def Valuation.lookup (valuation : Valuation) (name : Variable) : Except Failure Bool :=
  match valuation name with
  | some value => .ok value
  | none => .error (.undefined name)

namespace Formula

def letters : Formula → List Variable
  | .letter name => [name]
  | .not operand => operand.letters
  | .binary _ left right => left.letters ++ right.letters

/-- The variables of a formula, each once, in order of first appearance from the left. -/
def support (formula : Formula) : List Variable := formula.letters.eraseDups

def evaluate (valuation : Valuation) : Formula → Except Failure Bool
  | .letter name => valuation.lookup name
  | .not operand => do
      let value ← operand.evaluate valuation
      return !value
  | .binary connective left right => do
      let leftValue ← left.evaluate valuation
      let rightValue ← right.evaluate valuation
      return connective.apply leftValue rightValue

/-- The truth value of a formula when every variable whatever has a value. -/
def truth (world : Variable → Bool) : Formula → Bool
  | .letter name => world name
  | .not operand => !operand.truth world
  | .binary connective left right => connective.apply (left.truth world) (right.truth world)

end Formula

end Propositional
