import Propositional.Formula.Basic

/-!
The written form of a formula. Every binary connective stands inside its own pair of
parentheses. A negation is written directly before its operand, except that the operand
of a negation is enclosed when it is a negation itself, since `~~` is not a formula.
-/

namespace Propositional

set_option autoImplicit false

namespace Formula

/-- The written form of a formula, followed by further characters. -/
def write : Formula → List Char → List Char
  | .letter name, suffix => name :: suffix
  | .not (.not operand), suffix => '~' :: '(' :: write (.not operand) (')' :: suffix)
  | .not operand, suffix => '~' :: write operand suffix
  | .binary connective left right, suffix =>
      '(' :: write left (' ' :: (connective.symbol ++ ' ' :: write right (')' :: suffix)))

def display (formula : Formula) : String := String.ofList (formula.write [])

end Formula

end Propositional
