/-!
Variables are single letters. The letter `v` writes disjunction and is therefore
never a variable, which leaves twenty-five of the lowercase letters.
-/

namespace Propositional

set_option autoImplicit false

/-- A variable is named by one character. What a text or a list of names may
declare is restricted by `isVariable`; a formula built by hand may hold any character. -/
abbrev Variable := Char

def reservedLetter : Variable := 'v'

def isLetter (character : Char) : Bool := decide ('a' ≤ character ∧ character ≤ 'z')

def isVariable (character : Char) : Bool := isLetter character && character != reservedLetter

def variableCount : Nat := 25

theorem variable_count_eq :
    ((List.range 128).map Char.ofNat |>.filter isVariable).length = variableCount := by decide

theorem is_variable_iff (character : Char) :
    isVariable character = true ↔ 'a' ≤ character ∧ character ≤ 'z' ∧ character ≠ 'v' := by
  simp [isVariable, isLetter, reservedLetter, and_assoc]

end Propositional
