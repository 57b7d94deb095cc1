import Propositional.Formula.Basic

/-!
Formulas as lists of nodes in postorder: the operands of a node, from the left to the
right, come before the node. A list of nodes is built up into formulas on a stack, and
exactly the postorder lists of formulas build a single one.
-/

namespace Propositional

set_option autoImplicit false

inductive Node where
  | letter (name : Variable)
  | not
  | binary (connective : Connective)
  deriving DecidableEq

namespace Formula

def postorder : Formula → List Node
  | .letter name => [.letter name]
  | .not operand => operand.postorder ++ [.not]
  | .binary connective left right => left.postorder ++ right.postorder ++ [.binary connective]

/-- Applies nodes in turn to a stack of formulas, of which the last one built comes first. -/
def build : List Formula → List Node → Option (List Formula)
  | stack, [] => some stack
  | stack, .letter name :: nodes => build (.letter name :: stack) nodes
  | operand :: stack, .not :: nodes => build (.not operand :: stack) nodes
  | right :: left :: stack, .binary connective :: nodes =>
      build (.binary connective left right :: stack) nodes
  | _, _ => none

def ofPostorder? (nodes : List Node) : Option Formula :=
  match build [] nodes with
  | some [formula] => some formula
  | _ => none

theorem build_postorder (formula : Formula) (stack : List Formula) (nodes : List Node) :
    build stack (formula.postorder ++ nodes) = build (formula :: stack) nodes := by
  induction formula generalizing stack nodes with
  | letter name => rfl
  | not operand induction => simp [postorder, induction, build]
  | binary connective left right leftInduction rightInduction =>
      simp [postorder, leftInduction, rightInduction, build]

/-- What stands on the stack in the end is written by what stood on it and the nodes behind that. -/
theorem postorder_of_build {stack built : List Formula} {nodes : List Node}
    (run : build stack nodes = some built) :
    built.reverse.flatMap postorder = stack.reverse.flatMap postorder ++ nodes := by
  fun_induction build stack nodes with
  | case1 stack =>
      cases run
      rw [List.append_nil]
  | case2 stack name nodes induction => simpa [postorder] using induction run
  | case3 operand stack nodes induction => simpa [postorder] using induction run
  | case4 right left stack connective nodes induction =>
      simpa [postorder] using induction run
  | case5 => cases run

theorem of_postorder_eq_some_iff (nodes : List Node) (formula : Formula) :
    ofPostorder? nodes = some formula ↔ nodes = formula.postorder := by
  constructor
  · intro taken
    unfold ofPostorder? at taken
    split at taken
    next single run =>
      cases taken
      simpa using (postorder_of_build run).symm
    next => cases taken
  · rintro rfl
    have built := build_postorder formula [] []
    rw [List.append_nil] at built
    rw [ofPostorder?, built]
    rfl

end Formula

end Propositional
