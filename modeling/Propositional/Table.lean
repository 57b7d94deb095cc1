import Propositional.Classification
import Propositional.Variables

/-!
Truth tables: the value of a formula on each assignment to some variables. Tables are
complete, so the classification of a formula can be read off its table.
-/

namespace Propositional

set_option autoImplicit false

structure Row where
  assignment : Assignment
  value : Bool
  deriving DecidableEq

structure Table where
  domain : Variables
  rows : List Row
  deriving DecidableEq

def truthMark (value : Bool) : Char := if value then 'T' else 'F'

namespace Row

/-- The values of the variables with one space between each two, and the value of the formula. -/
def display (row : Row) : String :=
  String.ofList ((row.assignment.values.map truthMark).intersperse ' ') ++ " | " ++
    (truthMark row.value).toString ++ "\n"

end Row

namespace Table

def trueRows (table : Table) : List Row := table.rows.filter Row.value

def classification (table : Table) : Classification :=
  if table.trueRows.isEmpty then .unsatisfiable
  else if table.rows.all Row.value then .tautology
  else .satisfiable (table.trueRows.map Row.assignment)

def display (table : Table) : String :=
  table.domain.display ++ " | value\n" ++ String.join (table.rows.map Row.display)

end Table

end Propositional
