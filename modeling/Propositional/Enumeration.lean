import Propositional.Assignment
import Propositional.Variables

/-!
Every assignment to a list of variables, numbered by rows. The binary digits of a row belong
to the variables in their order, the most significant one to the first variable, and the
digit 0 stands for true. So the first variable is true on the first half of the rows, and each
variable alternates twice as fast as the one before. Without variables there is one row.

An enumeration hands the assignments out one at a time and can skip rows without visiting them.
-/

namespace Propositional

set_option autoImplicit false

namespace Variables

def rowCount (domain : Variables) : Nat := 1 <<< domain.size

def assignment (domain : Variables) (row : Nat) : Assignment :=
  ⟨domain.names.mapIdx fun index name =>
    (name, !row.testBit (domain.size - 1 - index))⟩

def assignments (domain : Variables) : List Assignment :=
  (List.range domain.rowCount).map domain.assignment

end Variables

/-- The rows from `row` onwards have yet to be handed out. -/
structure Enumeration where
  domain : Variables
  row : Nat
  inRange : row ≤ domain.rowCount

namespace Enumeration

def start (domain : Variables) : Enumeration := ⟨domain, 0, Nat.zero_le _⟩

def remaining (enumeration : Enumeration) : Nat :=
  enumeration.domain.rowCount - enumeration.row

def next? (enumeration : Enumeration) : Option (Assignment × Enumeration) :=
  if more : enumeration.row < enumeration.domain.rowCount then
    some (enumeration.domain.assignment enumeration.row,
      { enumeration with row := enumeration.row + 1, inRange := more })
  else
    none

def skip (enumeration : Enumeration) (count : Nat) : Enumeration :=
  { enumeration with
    row := min (enumeration.row + count) enumeration.domain.rowCount
    inRange := Nat.min_le_right _ _ }

/-- Leaves out some rows and hands out the assignment of the row after them, if there is one. -/
def takeAfter (enumeration : Enumeration) (count : Nat) : Option Assignment × Enumeration :=
  match (enumeration.skip count).next? with
  | some (assignment, later) => (some assignment, later)
  | none => (none, enumeration.skip count)

theorem remaining_next {enumeration later : Enumeration} {assignment : Assignment}
    (found : enumeration.next? = some (assignment, later)) :
    later.remaining < enumeration.remaining := by
  unfold next? at found
  split at found
  next more =>
    cases found
    simp only [remaining]
    omega
  next => cases found

end Enumeration

end Propositional
