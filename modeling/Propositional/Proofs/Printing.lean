import Propositional.Proofs.Declaration
import Propositional.Proofs.Interruption

/-!
What can be told of a table from its printed form. The rows carry neither numbers nor names, and
how many characters stand in a line depends on the variables. But tables are complete, so the length
of the whole text tells how many variables there are, and thereby where the names in the first line
end. The names give the assignments, and behind each of them stands its value.
-/

namespace Propositional

set_option autoImplicit false

theorem intersperse_injective {Item : Type} {separator : Item} {items others : List Item}
    (same : items.intersperse separator = others.intersperse separator) : items = others := by
  induction items generalizing others with
  | nil =>
      match others with
      | [] => rfl
      | [_] => cases same
      | _ :: _ :: _ => cases same
  | cons item items induction =>
      match items, others with
      | [], [_] =>
          cases same
          rfl
      | _ :: _, _ :: _ :: _ =>
          simp only [List.intersperse_cons_cons, List.cons.injEq, true_and] at same
          rw [same.1, induction same.2]
      | [], [] => cases same
      | [], _ :: _ :: _ => cases same
      | _ :: _, [] => cases same
      | _ :: _, [_] => cases same

theorem truth_mark_injective :
    ∀ value other : Bool, truthMark value = truthMark other → value = other := by
  decide

namespace Table

def IsComplete (table : Table) : Prop := table.rows.map Row.assignment = table.domain.assignments

theorem is_complete_of_tabulate {evaluate : Assignment → Except Failure Bool}
    {calculator : Calculator} {domain : Variables} {table : Table}
    (tabulated : (calculator.tabulate evaluate domain).1 = .ok table) : table.IsComplete := by
  obtain ⟨rfl, same, _⟩ := Calculator.rows_of_tabulate tabulated
  exact same

theorem is_complete_of_table {calculator : Calculator} {source : Source}
    {names : Option (List String)} {table : Table}
    (built : (calculator.table source names).1 = .ok table) : table.IsComplete := by
  unfold Calculator.table at built
  split at built
  next => cases built
  next tokens domain _ =>
    unfold Calculator.tableOfTokens at built
    split at built
    next => exact is_complete_of_tabulate built
    next =>
      split at built
      next => cases built
      next => exact is_complete_of_tabulate built

theorem to_list_display_row (row : Row) :
    row.display.toList =
      (row.assignment.values.map truthMark).intersperse ' ' ++
        [' ', '|', ' ', truthMark row.value, '\n'] := by
  simp [Row.display, String.toList_append]

theorem to_list_display (table : Table) :
    table.display.toList =
      table.domain.names.intersperse ' ' ++
        (" | value\n".toList ++ table.rows.flatMap fun row => row.display.toList) := by
  rw [display, String.toList_append, String.toList_append, String.toList_join, Variables.display,
    String.toList_ofList, List.flatMap_map, List.append_assoc]

/-- The count of characters in the printed form of a complete table. -/
def printedLength (size : Nat) : Nat := 2 * size - 1 + 9 + 2 ^ size * (2 * size - 1 + 5)

theorem printed_length_lt {size greater : Nat} (less : size < greater) :
    printedLength size < printedLength greater := by
  have rows : 2 ^ size ≤ 2 ^ greater := Nat.pow_le_pow_right Nat.two_pos (Nat.le_of_lt less)
  have products : 2 ^ size * (2 * size - 1 + 5) ≤ 2 ^ greater * (2 * greater - 1 + 5) :=
    Nat.mul_le_mul rows (by omega)
  unfold printedLength
  omega

theorem printed_length_injective {size other : Nat}
    (same : printedLength size = printedLength other) : size = other := by
  rcases Nat.lt_trichotomy size other with less | equal | greater
  · exact absurd same (Nat.ne_of_lt (printed_length_lt less))
  · exact equal
  · exact absurd same.symm (Nat.ne_of_lt (printed_length_lt greater))

theorem length_display_row {row : Row} {domain : Variables} (fits : row.assignment.IsOver domain) :
    row.display.toList.length = 2 * domain.size - 1 + 5 := by
  have names : row.assignment.pairs.map Prod.fst = domain.names := fits
  have count : row.assignment.values.length = domain.size := by
    rw [Variables.size, ← names, Assignment.values, List.length_map, List.length_map]
  simp [to_list_display_row, List.length_intersperse, count]

/-- Completeness gives both how many lines there are and how long each of them is. -/
theorem length_display {table : Table} (complete : table.IsComplete) :
    table.display.toList.length = printedLength table.domain.size := by
  have line : ∀ row ∈ table.rows, row.display.toList.length = 2 * table.domain.size - 1 + 5 := by
    intro row member
    apply length_display_row
    rw [← table.domain.mem_assignments, ← complete]
    exact List.mem_map_of_mem member
  have lines : table.rows.length = 2 ^ table.domain.size := by
    rw [← table.domain.length_assignments, ← complete, List.length_map]
  have total : (table.rows.flatMap fun row => row.display.toList).length =
      table.rows.length * (2 * table.domain.size - 1 + 5) := by
    rw [List.length_flatMap, List.map_congr_left line]
    simp
  rw [to_list_display, List.length_append, List.length_append, List.length_intersperse, total,
    lines, printedLength, Variables.size, ← Nat.add_assoc]
  rfl

theorem rows_eq_of_display {rows others : List Row}
    (assignments : rows.map Row.assignment = others.map Row.assignment)
    (printed : (rows.flatMap fun row => row.display.toList) =
      others.flatMap fun row => row.display.toList) : rows = others := by
  induction rows generalizing others with
  | nil => exact (List.map_eq_nil_iff.1 assignments.symm).symm
  | cons row rows induction =>
      match others with
      | [] => cases assignments
      | other :: others =>
          obtain ⟨assignment, value⟩ := row
          obtain ⟨counterpart, otherValue⟩ := other
          obtain ⟨rfl, later⟩ := List.cons.inj assignments
          -- the same stands in front of both values, because the assignments are the same
          rw [List.flatMap_cons, List.flatMap_cons, to_list_display_row, to_list_display_row,
            List.append_assoc, List.append_assoc] at printed
          have behind := List.append_cancel_left printed
          simp only [List.cons_append, List.nil_append, List.cons.injEq, true_and] at behind
          rw [truth_mark_injective value otherValue behind.1, induction later behind.2]

theorem eq_of_display {table other : Table} (complete : table.IsComplete)
    (otherComplete : other.IsComplete) (same : table.display = other.display) : table = other := by
  have characters := congrArg String.toList same
  have sizes : table.domain.size = other.domain.size := by
    apply printed_length_injective
    rw [← length_display complete, ← length_display otherComplete, characters]
  rw [to_list_display, to_list_display] at characters
  have widths : (table.domain.names.intersperse ' ').length =
      (other.domain.names.intersperse ' ').length := by
    rw [List.length_intersperse, List.length_intersperse]
    exact congrArg (fun size => 2 * size - 1) sizes
  obtain ⟨first, rest⟩ := List.append_inj characters widths
  have domains : table.domain = other.domain := Variables.eq_of_names (intersperse_injective first)
  have assignments : table.rows.map Row.assignment = other.rows.map Row.assignment := by
    rw [complete, otherComplete, domains]
  have rows := rows_eq_of_display assignments (List.append_cancel_left rest)
  obtain ⟨domain, rows⟩ := table
  cases domains
  cases rows
  rfl

end Table

/-- Tables that are printed in the same way are the same, whatever calculators built them of whatever
formulas and names. -/
theorem printed_form_determines_table {calculator other : Calculator} {source otherSource : Source}
    {names otherNames : Option (List String)} {first second : Table}
    (built : (calculator.table source names).1 = .ok first)
    (otherBuilt : (other.table otherSource otherNames).1 = .ok second)
    (printed : first.display = second.display) : first = second :=
  Table.eq_of_display (Table.is_complete_of_table built) (Table.is_complete_of_table otherBuilt)
    printed

/-- An implication and a disjunction are printed in the same way. The one is read to a tree, the
other is read again for each row, and its variables are inferred. -/
theorem implication_printed_as_disjunction :
    ∃ first second : Table,
      (Calculator.table ⟨.standard, none, 0⟩ (.text "p -> q") (some ["p", "q"])).1 = .ok first ∧
      (Calculator.table ⟨Settings.standard.under .reparse, none, 0⟩ (.text "~p v q") none).1 =
        .ok second ∧
      first.display = second.display ∧ first = second := by
  let domain : Variables := ⟨['p', 'q'], by decide⟩
  let implication : Formula := .binary .implies (.letter 'p') (.letter 'q')
  let disjunction : Formula := .binary .or (.not (.letter 'p')) (.letter 'q')
  have built :
      (Calculator.table ⟨.standard, none, 0⟩ (.text "p -> q") (some ["p", "q"])).1 =
        .ok (.ofFormula implication domain) := by
    with_unfolding_all rfl
  have otherBuilt :
      (Calculator.table ⟨Settings.standard.under .reparse, none, 0⟩ (.text "~p v q") none).1 =
        .ok (.ofFormula disjunction domain) := by
    with_unfolding_all rfl
  have printed : (Table.ofFormula implication domain).display =
      (Table.ofFormula disjunction domain).display := by
    decide +kernel
  exact ⟨_, _, built, otherBuilt, printed, printed_form_determines_table built otherBuilt printed⟩

end Propositional
