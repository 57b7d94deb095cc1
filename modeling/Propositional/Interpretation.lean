import Propositional.Formula.Basic

/-!
Interpretations of the letters and connectives of a formula, in terms of which reading is
defined once for all uses. An interpretation works on a state of its own, and only the
interpretation of a letter can fail.
-/

namespace Propositional

set_option autoImplicit false

structure Interpretation (State Value : Type) where
  letter : Variable → State → Except Failure Value × State
  not : Value → State → Value × State
  binary : Connective → Value → Value → State → Value × State

namespace Interpretation

def evaluation (valuation : Valuation) : Interpretation Unit Bool where
  letter name state := (valuation.lookup name, state)
  not value state := (!value, state)
  binary connective left right state := (connective.apply left right, state)

def construction : Interpretation Unit Formula where
  letter name state := (.ok (.letter name), state)
  not operand state := (.not operand, state)
  binary connective left right state := (.binary connective left right, state)

/-- A use of an interpretation. Operands are named by the number of the use they result from. -/
inductive Use where
  | letter (name : Variable)
  | not (operand : Nat)
  | binary (connective : Connective) (left right : Nat)
  deriving DecidableEq

/-- Keeps every use made of it, the latest first, and results in the number of the use.
A letter among the undefined ones is kept as well and then fails. -/
def recording (isUndefined : Variable → Bool) : Interpretation (List Use) Nat where
  letter name uses :=
    (if isUndefined name then .error (.undefined name) else .ok uses.length, .letter name :: uses)
  not operand uses := (uses.length, .not operand :: uses)
  binary connective left right uses := (uses.length, .binary connective left right :: uses)

end Interpretation

end Propositional
