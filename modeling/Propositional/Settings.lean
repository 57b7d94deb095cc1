import Propositional.Variable

/-!
The settings of a calculator. Each setting has a least and a greatest value, and is only
set to values between them.
-/

namespace Propositional

set_option autoImplicit false

structure Setting (Value : Type) where
  least : Value
  greatest : Value
  value : Value

namespace Setting

variable {Value : Type} [LE Value] [DecidableLE Value]

def Accepts (setting : Setting Value) (value : Value) : Prop :=
  setting.least ≤ value ∧ value ≤ setting.greatest

instance (setting : Setting Value) (value : Value) : Decidable (setting.Accepts value) :=
  inferInstanceAs (Decidable (_ ∧ _))

def set? (setting : Setting Value) (value : Value) : Option (Setting Value) :=
  if setting.Accepts value then some { setting with value := value } else none

end Setting

/-- How a formula is evaluated on the rows of a table: by reading its tokens again for each
row, or by reading them to a tree once. -/
inductive Strategy where
  | reparse
  | tree
  deriving DecidableEq

namespace Strategy

def rank : Strategy → Nat
  | .reparse => 0
  | .tree => 1

instance : LE Strategy := ⟨fun left right => left.rank ≤ right.rank⟩

instance : DecidableLE Strategy := fun left right =>
  inferInstanceAs (Decidable (left.rank ≤ right.rank))

def name : Strategy → String
  | .reparse => "reparse"
  | .tree => "tree"

def ofName? (name : String) : Option Strategy :=
  [Strategy.reparse, Strategy.tree].find? fun strategy => strategy.name = name

end Strategy

structure Settings where
  allowTrailing : Setting Bool
  strategy : Setting Strategy
  /-- The greatest count of variables. A table has as many rows as two to the power of it. -/
  variableLimit : Setting Nat

/-- Trailing tokens are a fault, formulas are read to trees, and every letter may be used. -/
def Settings.standard : Settings where
  allowTrailing := ⟨false, true, false⟩
  strategy := ⟨.reparse, .tree, .tree⟩
  variableLimit := ⟨0, variableCount, variableCount⟩

end Propositional
