import Propositional.Variable

/-!
Everything that can stop the work on a formula, named by its cause. Positions in
a text are counted in bytes of its UTF-8 form.
-/

namespace Propositional

set_option autoImplicit false

inductive Failure where
  | unrecognised (character : Char) (offset : Nat)
  | unclosed (offset : Nat)
  | unexpected (literal : String) (offset : Nat)
  | incomplete
  | trailing (offset : Nat)
  | invalidName (name : String)
  | reservedName
  | duplicateName (name : Variable)
  | tooMany (count limit : Nat)
  | undefined (name : Variable)
  | terminated
  deriving DecidableEq

namespace Failure

def offset? : Failure → Option Nat
  | .unrecognised _ offset => some offset
  | .unclosed offset => some offset
  | .unexpected _ offset => some offset
  | .trailing offset => some offset
  | _ => none

/-- The text shown to a user. Characters, literals and names stand in it as they are. -/
def message : Failure → String
  | .unrecognised character offset =>
      "Unrecognised character '" ++ character.toString ++ "' at " ++ toString offset
  | .unclosed offset => "Missing closing parenthesis for '(' at " ++ toString offset
  | .unexpected literal offset =>
      "Unexpected token '" ++ literal ++ "' at " ++ toString offset
  | .incomplete => "Unexpected end of input"
  | .trailing offset => "Unexpected trailing tokens at " ++ toString offset
  | .invalidName name =>
      "Invalid variable \"" ++ name ++ "\", variables are single lowercase letters"
  | .reservedName => "'v' is reserved for disjunction"
  | .duplicateName name => "Variable '" ++ name.toString ++ "' is declared twice"
  | .tooMany count limit =>
      toString count ++ " variables declared, though the limit is " ++ toString limit
  | .undefined name => "Undefined variable: '" ++ name.toString ++ "'"
  | .terminated => "Terminated by callback"

end Failure

end Propositional
