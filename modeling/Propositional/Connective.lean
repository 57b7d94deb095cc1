/-!
The four binary connectives, how they are written, how tightly they bind and
which boolean function each of them stands for.
-/

namespace Propositional

set_option autoImplicit false

inductive Connective where
  | and
  | or
  | implies
  | iff
  deriving DecidableEq

/-- Conjunction and disjunction bind tightly, implication and equivalence loosely.
Connectives of one strength are read from the left to the right. -/
inductive Strength where
  | tight
  | loose
  deriving DecidableEq

namespace Connective

def strength : Connective → Strength
  | .and | .or => .tight
  | .implies | .iff => .loose

def symbol : Connective → List Char
  | .and => ['^']
  | .or => ['v']
  | .implies => ['-', '>']
  | .iff => ['<', '-', '>']

def apply : Connective → Bool → Bool → Bool
  | .and, left, right => left && right
  | .or, left, right => left || right
  | .implies, left, right => !left || right
  | .iff, left, right => (!left || right) && (!right || left)

end Connective

end Propositional
