import Propositional.Calculator
import Propositional.Proofs.Assignments
import Propositional.Proofs.Evaluation

/-!
Building a table, as a recursion on the assignments that are left. As long as the terminator does
not ask to stop and every row has a value, this gives the rows in the order of the assignments,
and both strategies find the same values.
-/

namespace Propositional

set_option autoImplicit false

namespace Enumeration

def upcoming (enumeration : Enumeration) : List Assignment :=
  (List.range' enumeration.row enumeration.remaining).map enumeration.domain.assignment

theorem upcoming_start (domain : Variables) : (start domain).upcoming = domain.assignments := by
  unfold upcoming start remaining Variables.assignments
  rw [Nat.sub_zero, List.range_eq_range']

theorem upcoming_of_next_none {enumeration : Enumeration} (done : enumeration.next? = none) :
    enumeration.upcoming = [] := by
  unfold next? at done
  split at done
  next => cases done
  next full =>
    have none : enumeration.remaining = 0 := by
      unfold remaining
      omega
    rw [upcoming, none]
    rfl

theorem upcoming_of_next {enumeration later : Enumeration} {assignment : Assignment}
    (found : enumeration.next? = some (assignment, later)) :
    enumeration.upcoming = assignment :: later.upcoming := by
  unfold next? at found
  split at found
  next more =>
    cases found
    have count : enumeration.remaining =
        enumeration.domain.rowCount - (enumeration.row + 1) + 1 := by
      unfold remaining
      omega
    rw [upcoming, count, List.range'_succ, List.map_cons]
    rfl
  next => cases found

end Enumeration

/-- The table of a formula that has a value on every assignment to the variables. -/
def Table.ofFormula (formula : Formula) (domain : Variables) : Table :=
  ⟨domain, domain.assignments.map fun assignment =>
    ⟨assignment, formula.truthOn assignment.valuation⟩⟩

theorem Table.assignments_of_formula (formula : Formula) (domain : Variables) :
    (ofFormula formula domain).rows.map Row.assignment = domain.assignments := by
  unfold ofFormula
  rw [List.map_map]
  exact List.map_id _

theorem first_undefined_of_covered {assignment : Assignment} {domain : Variables}
    {names : List Variable} (fits : assignment.IsOver domain)
    (covered : ∀ name ∈ names, name ∈ domain.names) :
    assignment.valuation.firstUndefined? names = none := by
  apply List.find?_eq_none.2
  intro name member
  rw [Assignment.valuation_is_none_iff fits]
  exact not_not_intro (covered name member)

theorem first_undefined_eq_none_iff {assignment : Assignment} {domain : Variables}
    (fits : assignment.IsOver domain) (names : List Variable) :
    assignment.valuation.firstUndefined? names = none ↔ ∀ name ∈ names, name ∈ domain.names := by
  constructor
  · intro none name member
    by_contra absent
    have undefined := (Assignment.valuation_is_none_iff fits name).2 absent
    exact List.find?_eq_none.1 none name member undefined
  · exact first_undefined_of_covered fits

theorem evaluate_on_assignment {formula : Formula} {domain : Variables} {assignment : Assignment}
    (covered : ∀ name ∈ formula.letters, name ∈ domain.names)
    (fits : assignment.IsOver domain) :
    formula.evaluate assignment.valuation = .ok (formula.truthOn assignment.valuation) := by
  rw [Formula.evaluate_eq, first_undefined_of_covered fits covered]

namespace Calculator

def tabulateOver (evaluate : Assignment → Except Failure Bool) :
    Calculator → List Assignment → List Row → Except Failure (List Row) × Calculator
  | calculator, [], rows => (.ok rows.reverse, calculator)
  | calculator, assignment :: assignments, rows =>
      match calculator.check with
      | (true, later) => (.error .terminated, later)
      | (false, later) =>
          match evaluate assignment with
          | .error failure => (.error failure, later)
          | .ok value => tabulateOver evaluate later assignments (⟨assignment, value⟩ :: rows)

theorem tabulate_from_eq (evaluate : Assignment → Except Failure Bool) (calculator : Calculator)
    (enumeration : Enumeration) (rows : List Row) :
    calculator.tabulateFrom evaluate enumeration rows =
      tabulateOver evaluate calculator enumeration.upcoming rows := by
  rw [tabulateFrom]
  split
  next done =>
    rw [Enumeration.upcoming_of_next_none done]
    rfl
  next assignment later found =>
    have shorter := Enumeration.remaining_next found
    rw [Enumeration.upcoming_of_next found, tabulateOver]
    obtain ⟨stop, after⟩ := calculator.check
    cases stop with
    | true => rfl
    | false =>
        cases evaluate assignment with
        | error failure => rfl
        | ok value => exact tabulate_from_eq evaluate after later (⟨assignment, value⟩ :: rows)
termination_by enumeration.remaining

theorem tabulate_eq (evaluate : Assignment → Except Failure Bool) (calculator : Calculator)
    (domain : Variables) :
    calculator.tabulate evaluate domain =
      ((tabulateOver evaluate calculator domain.assignments []).1.map fun rows => ⟨domain, rows⟩,
        (tabulateOver evaluate calculator domain.assignments []).2) := by
  unfold tabulate
  rw [tabulate_from_eq, Enumeration.upcoming_start]

def NeverStops (calculator : Calculator) : Prop :=
  ∀ terminator, calculator.terminator = some terminator →
    ∀ count, terminator.answers (terminator.asked + count) = false

theorem check_of_never_stops {calculator : Calculator} (silent : calculator.NeverStops) :
    calculator.check.1 = false ∧ calculator.check.2.NeverStops := by
  unfold check
  cases present : calculator.terminator with
  | none => exact ⟨rfl, silent⟩
  | some terminator =>
      have answers := silent terminator present
      refine ⟨answers 0, ?_⟩
      intro other same count
      cases same
      have answer := answers (1 + count)
      rw [← Nat.add_assoc] at answer
      exact answer

theorem tabulate_over_ok {evaluate : Assignment → Except Failure Bool} {value : Assignment → Bool}
    (calculator : Calculator) (assignments : List Assignment) (rows : List Row)
    (silent : calculator.NeverStops)
    (found : ∀ assignment ∈ assignments, evaluate assignment = .ok (value assignment)) :
    (tabulateOver evaluate calculator assignments rows).1 =
      .ok (rows.reverse ++ assignments.map fun assignment => ⟨assignment, value assignment⟩) := by
  induction assignments generalizing calculator rows with
  | nil => simp [tabulateOver]
  | cons assignment assignments induction =>
      obtain ⟨goesOn, laterSilent⟩ := check_of_never_stops silent
      have here := found assignment (by simp)
      have rest := induction calculator.check.2 (⟨assignment, value assignment⟩ :: rows) laterSilent
        (by intro other member; exact found other (by simp [member]))
      rw [tabulateOver]
      match asked : calculator.check with
      | (true, later) =>
          rw [asked] at goesOn
          cases goesOn
      | (false, later) =>
          rw [asked] at rest
          simp only [here, rest]
          simp

theorem tabulate_over_error {evaluate : Assignment → Except Failure Bool} {failure : Failure}
    {calculator : Calculator} {assignments : List Assignment} {rows : List Row}
    (failed : (tabulateOver evaluate calculator assignments rows).1 = .error failure) :
    failure = .terminated ∨ ∃ assignment ∈ assignments, evaluate assignment = .error failure := by
  induction assignments generalizing calculator rows with
  | nil => cases failed
  | cons assignment assignments induction =>
      rw [tabulateOver] at failed
      match asked : calculator.check with
      | (true, later) =>
          rw [asked] at failed
          cases failed
          exact .inl rfl
      | (false, later) =>
          rw [asked] at failed
          cases here : evaluate assignment with
          | error fault =>
              simp only [here] at failed
              cases failed
              exact .inr ⟨assignment, by simp, here⟩
          | ok value =>
              simp only [here] at failed
              rcases induction failed with stopped | ⟨other, member, fault⟩
              · exact .inl stopped
              · exact .inr ⟨other, by simp [member], fault⟩

theorem rows_of_tabulate_over {evaluate : Assignment → Except Failure Bool}
    {calculator : Calculator} {assignments : List Assignment} {rows found : List Row}
    (tabulated : (tabulateOver evaluate calculator assignments rows).1 = .ok found) :
    ∃ further, found = rows.reverse ++ further ∧ further.map Row.assignment = assignments ∧
      ∀ row ∈ further, evaluate row.assignment = .ok row.value := by
  induction assignments generalizing calculator rows with
  | nil =>
      cases tabulated
      exact ⟨[], (List.append_nil _).symm, rfl, by simp⟩
  | cons assignment assignments induction =>
      rw [tabulateOver] at tabulated
      cases asked : calculator.check with
      | mk stop later =>
          rw [asked] at tabulated
          cases stop with
          | true => cases tabulated
          | false =>
              cases here : evaluate assignment with
              | error failure =>
                  simp only [here] at tabulated
                  cases tabulated
              | ok value =>
                  simp only [here] at tabulated
                  obtain ⟨further, rfl, same, evaluated⟩ := induction tabulated
                  refine ⟨⟨assignment, value⟩ :: further, by simp, by simp [same], ?_⟩
                  exact List.forall_mem_cons.2 ⟨here, evaluated⟩

/-- A table has a row for each assignment, in their order, with the value found there. -/
theorem rows_of_tabulate {evaluate : Assignment → Except Failure Bool} {calculator : Calculator}
    {domain : Variables} {table : Table}
    (tabulated : (calculator.tabulate evaluate domain).1 = .ok table) :
    table.domain = domain ∧ table.rows.map Row.assignment = domain.assignments ∧
      ∀ row ∈ table.rows, evaluate row.assignment = .ok row.value := by
  rw [tabulate_eq] at tabulated
  cases rows : (tabulateOver evaluate calculator domain.assignments []).1 with
  | error failure =>
      rw [rows] at tabulated
      cases tabulated
  | ok found =>
      rw [rows] at tabulated
      cases tabulated
      obtain ⟨_, rfl, same, evaluated⟩ := rows_of_tabulate_over rows
      exact ⟨rfl, same, evaluated⟩

theorem values_of_tabulate {evaluate : Assignment → Except Failure Bool} {calculator : Calculator}
    {domain : Variables} {table : Table}
    (tabulated : (calculator.tabulate evaluate domain).1 = .ok table) :
    ∃ value, evaluate (domain.assignment 0) = .ok value := by
  obtain ⟨_, same, evaluated⟩ := rows_of_tabulate tabulated
  have first := domain.assignment_mem_assignments (Nat.two_pow_pos domain.size)
  rw [← same] at first
  obtain ⟨row, member, found⟩ := List.mem_map.1 first
  exact ⟨row.value, found ▸ evaluated row member⟩

theorem tabulate_of_tree {evaluate : Assignment → Except Failure Bool} {formula : Formula}
    {domain : Variables} {calculator : Calculator} (silent : calculator.NeverStops)
    (covered : ∀ name ∈ formula.letters, name ∈ domain.names)
    (evaluates : ∀ assignment, evaluate assignment = formula.evaluate assignment.valuation) :
    (calculator.tabulate evaluate domain).1 = .ok (.ofFormula formula domain) := by
  have found : ∀ assignment ∈ domain.assignments,
      evaluate assignment = .ok (formula.truthOn assignment.valuation) := by
    intro assignment member
    rw [evaluates]
    exact evaluate_on_assignment covered ((domain.mem_assignments assignment).1 member)
  rw [tabulate_eq]
  simp only [tabulate_over_ok calculator domain.assignments [] silent found]
  rfl

theorem table_of_tokens_of_tree {formula : Formula} {domain : Variables} {calculator : Calculator}
    {tokens : List Token} (silent : calculator.NeverStops)
    (covered : ∀ name ∈ formula.letters, name ∈ domain.names)
    (read : calculator.formula tokens = .ok formula) :
    (calculator.tableOfTokens tokens domain).1 = .ok (.ofFormula formula domain) := by
  unfold tableOfTokens
  cases calculator.settings.strategy.value with
  | reparse =>
      apply tabulate_of_tree silent covered
      intro assignment
      exact evaluate_tokens_of_tree assignment.valuation read
  | tree =>
      simp only [read]
      apply tabulate_of_tree silent covered
      intro assignment
      rfl

theorem table_of_declared {calculator : Calculator} {source : Source}
    {names : Option (List String)} {tokens : List Token} {domain : Variables}
    (cut : source.toTokens = .ok tokens)
    (declared : calculator.declareOrInfer names tokens = .ok domain) :
    calculator.table source names = calculator.tableOfTokens tokens domain := by
  have found : (do
      let tokens ← source.toTokens
      return (tokens, ← calculator.declareOrInfer names tokens)) = Except.ok (tokens, domain) := by
    rw [cut]
    change (calculator.declareOrInfer names tokens).bind (fun domain => .ok (tokens, domain)) = _
    rw [declared]
    rfl
  unfold table
  rw [found]

theorem table_of_tree {formula : Formula} {domain : Variables} {calculator : Calculator}
    {source : Source} {names : Option (List String)} {tokens : List Token}
    (cut : source.toTokens = .ok tokens)
    (declared : calculator.declareOrInfer names tokens = .ok domain)
    (read : calculator.formula tokens = .ok formula)
    (covered : ∀ name ∈ formula.letters, name ∈ domain.names) (silent : calculator.NeverStops) :
    (calculator.table source names).1 = .ok (.ofFormula formula domain) := by
  rw [table_of_declared cut declared]
  exact table_of_tokens_of_tree silent covered read

end Calculator

end Propositional
