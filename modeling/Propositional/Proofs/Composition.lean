import Propositional.Proofs.Concatenation
import Propositional.Proofs.Tabulation

/-!
Tables of formulas that are joined in their texts. The table of a joined text is found row by row
from those of its parts, without a look at the formulas. So whether two formulas are equivalent, or
one is contradicted, can be asked in a text.
-/

namespace Propositional

set_option autoImplicit false

namespace Table

def complement (table : Table) : Table :=
  { table with rows := table.rows.map fun row => ⟨row.assignment, !row.value⟩ }

def combine (operation : Bool → Bool → Bool) (left right : Table) : Table :=
  ⟨left.domain, List.zipWith
    (fun first second => ⟨first.assignment, operation first.value second.value⟩)
    left.rows right.rows⟩

theorem complement_of_formula (formula : Formula) (domain : Variables) :
    (ofFormula formula domain).complement = ofFormula (.not formula) domain := by
  unfold complement ofFormula
  rw [List.map_map]
  rfl

theorem combine_of_formulas (connective : Connective) (left right : Formula)
    (domain : Variables) :
    (ofFormula left domain).combine connective.apply (ofFormula right domain) =
      ofFormula (.binary connective left right) domain := by
  unfold combine ofFormula
  rw [List.zipWith_map, List.zipWith_self]
  rfl

theorem classification_eq_unsatisfiable_iff (table : Table) :
    table.classification = .unsatisfiable ↔ ∀ row ∈ table.rows, row.value = false := by
  have none : table.trueRows.isEmpty = true ↔ ∀ row ∈ table.rows, row.value = false := by
    rw [List.isEmpty_iff, trueRows, List.filter_eq_nil_iff]
    simp only [Bool.not_eq_true]
  rw [← none]
  unfold classification
  by_cases empty : table.trueRows.isEmpty = true
  · simp [empty]
  · by_cases all : table.rows.all Row.value = true <;> simp [empty, all]

theorem classification_eq_tautology_iff {table : Table} (nonempty : table.rows ≠ []) :
    table.classification = .tautology ↔ ∀ row ∈ table.rows, row.value = true := by
  rw [← List.all_eq_true]
  unfold classification
  by_cases all : table.rows.all Row.value = true
  · have same : table.trueRows = table.rows := List.filter_eq_self.2 (List.all_eq_true.1 all)
    have notEmpty : table.trueRows.isEmpty = false := by
      rw [same]
      simpa using nonempty
    simp [notEmpty, all]
  · by_cases empty : table.trueRows.isEmpty = true <;> simp [empty, all]

theorem rows_of_formula_ne_nil (formula : Formula) (domain : Variables) :
    (ofFormula formula domain).rows ≠ [] := by
  obtain ⟨rest, first⟩ := domain.assignments_eq_cons
  unfold ofFormula
  rw [first, List.map_cons]
  exact List.cons_ne_nil _ _

end Table

namespace Calculator

theorem table_of_text {calculator : Calculator} {text : String} {names : List String}
    {formula : Formula} {domain : Variables} (silent : calculator.NeverStops)
    (declared : calculator.declare names = .ok domain)
    (read : Formula.ofText text false = .ok formula)
    (covered : ∀ name ∈ formula.letters, name ∈ domain.names) :
    (calculator.table (.text text) (some names)).1 = .ok (.ofFormula formula domain) := by
  obtain ⟨tokens, cut, strict⟩ := (Formula.of_text_eq_ok_iff text false formula).1 read
  have tokensRead : calculator.formula tokens = .ok formula :=
    of_tokens_ok_of_strict strict calculator.settings.allowTrailing.value
  exact table_of_tree cut declared tokensRead covered silent

theorem classify_of_table {calculator : Calculator} {source : Source}
    {names : Option (List String)} {table : Table}
    (built : (calculator.table source names).1 = .ok table) :
    (calculator.classify source names).1 = .ok table.classification := by
  unfold classify
  simp only [built]
  rfl

end Calculator

/-- The tables of two texts and of those which join them or negate the first one. -/
structure ComposesTables (tableOf : String → Except Failure Table) (first second : String)
    (left right : Table) : Prop where
  firstTable : tableOf first = .ok left
  secondTable : tableOf second = .ok right
  domains : left.domain = right.domain
  assignments : left.rows.map Row.assignment = right.rows.map Row.assignment
  negation : tableOf ("~(" ++ first ++ ")") = .ok left.complement
  conjunction : tableOf ("(" ++ first ++ ") ^ (" ++ second ++ ")") =
    .ok (left.combine (fun value other => value && other) right)
  disjunction : tableOf ("(" ++ first ++ ") v (" ++ second ++ ")") =
    .ok (left.combine (fun value other => value || other) right)
  implication : tableOf ("(" ++ first ++ ") -> (" ++ second ++ ")") =
    .ok (left.combine (fun value other => !value || other) right)
  equivalence : tableOf ("(" ++ first ++ ") <-> (" ++ second ++ ")") =
    .ok (left.combine (fun value other => value == other) right)

section

variable {calculator : Calculator} {first second : String} {names : List String}
variable {left right : Formula} {domain : Variables}

theorem composes_tables (silent : calculator.NeverStops)
    (declared : calculator.declare names = .ok domain)
    (leftRead : Formula.ofText first false = .ok left)
    (rightRead : Formula.ofText second false = .ok right)
    (leftCovered : ∀ name ∈ left.letters, name ∈ domain.names)
    (rightCovered : ∀ name ∈ right.letters, name ∈ domain.names) :
    ComposesTables (fun text => (calculator.table (.text text) (some names)).1) first second
      (.ofFormula left domain) (.ofFormula right domain) := by
  have bothCovered : ∀ name ∈ left.letters ++ right.letters, name ∈ domain.names := by
    intro name member
    rcases List.mem_append.1 member with member | member
    · exact leftCovered name member
    · exact rightCovered name member
  have joined (connective : Connective) (text : String) (operation : Bool → Bool → Bool)
      (written : text.toList = (joinedText connective first second).toList)
      (same : ∀ value other, operation value other = connective.apply value other) :
      (calculator.table (.text text) (some names)).1 =
        .ok ((Table.ofFormula left domain).combine operation (.ofFormula right domain)) := by
    have read := Formula.of_text_joined connective leftRead rightRead
    rw [← String.toList_injective written] at read
    have operations : operation = connective.apply := by
      funext value other
      exact same value other
    rw [operations, Table.combine_of_formulas]
    exact Calculator.table_of_text silent declared read bothCovered
  constructor
  case firstTable => exact Calculator.table_of_text silent declared leftRead leftCovered
  case secondTable => exact Calculator.table_of_text silent declared rightRead rightCovered
  case domains => rfl
  case assignments => rw [Table.assignments_of_formula, Table.assignments_of_formula]
  case negation =>
    have read := Formula.of_text_negation leftRead
    rw [Table.complement_of_formula]
    exact Calculator.table_of_text silent declared read leftCovered
  case conjunction =>
    apply joined .and
    · simp [joinedText, Connective.symbol]
    · decide
  case disjunction =>
    apply joined .or
    · simp [joinedText, Connective.symbol]
    · decide
  case implication =>
    apply joined .implies
    · simp [joinedText, Connective.symbol]
    · decide
  case equivalence =>
    apply joined .iff
    · simp [joinedText, Connective.symbol]
    · decide

end

namespace Table

theorem complement_unsatisfiable_iff {table : Table} (nonempty : table.rows ≠ []) :
    table.complement.classification = .unsatisfiable ↔ table.classification = .tautology := by
  rw [classification_eq_unsatisfiable_iff, classification_eq_tautology_iff nonempty, complement,
    List.forall_mem_map]
  simp only [Bool.not_eq_eq_eq_not, Bool.not_false]

theorem rows_eq_iff_values {left right : List Row}
    (assignments : left.map Row.assignment = right.map Row.assignment) :
    (∀ row ∈ List.zipWith
        (fun first second => (⟨first.assignment, first.value == second.value⟩ : Row)) left right,
      row.value = true) ↔ left = right := by
  induction left generalizing right with
  | nil =>
      cases right with
      | nil => simp
      | cons second right => cases assignments
  | cons first left induction =>
      cases right with
      | nil => cases assignments
      | cons second right =>
          rw [List.map_cons, List.map_cons, List.cons.injEq] at assignments
          obtain ⟨here, later⟩ := assignments
          have same : (first.value == second.value) = true ↔ first = second := by
            rw [beq_iff_eq]
            constructor
            · intro values
              cases first
              cases second
              cases here
              cases values
              rfl
            · exact congrArg Row.value
          rw [List.zipWith_cons_cons, List.forall_mem_cons, induction later, List.cons.injEq, same]

theorem equivalence_tautology_iff {left right : Table} (domains : left.domain = right.domain)
    (assignments : left.rows.map Row.assignment = right.rows.map Row.assignment)
    (nonempty : left.rows ≠ []) :
    (left.combine (fun value other => value == other) right).classification = .tautology ↔
      left = right := by
  have positive : 0 < left.rows.length := List.length_pos_iff.2 nonempty
  have lengths := congrArg List.length assignments
  rw [List.length_map, List.length_map] at lengths
  have combined : (left.combine (fun value other => value == other) right).rows ≠ [] := by
    apply List.length_pos_iff.1
    rw [combine, List.length_zipWith, ← lengths, Nat.min_self]
    exact positive
  rw [classification_eq_tautology_iff combined, combine, rows_eq_iff_values assignments]
  constructor
  · intro rows
    cases left
    cases right
    cases domains
    cases rows
    rfl
  · exact congrArg Table.rows

end Table

/-- The tables of texts that read to formulas give, row by row, those of their negation and of the
texts which join them. Equal tables are those of equivalent texts, and a text whose negation is
unsatisfiable is a tautology. -/
theorem tables_compose (calculator : Calculator) (first second : String) (names : List String)
    (left right : Formula) (domain : Variables) (silent : calculator.NeverStops)
    (declared : calculator.declare names = .ok domain)
    (leftRead : Formula.ofText first false = .ok left)
    (rightRead : Formula.ofText second false = .ok right)
    (leftCovered : ∀ name ∈ left.support, name ∈ domain.names)
    (rightCovered : ∀ name ∈ right.support, name ∈ domain.names) :
    ∃ leftTable rightTable,
      ComposesTables (fun text => (calculator.table (.text text) (some names)).1) first second
        leftTable rightTable ∧
      ((calculator.classify (.text ("(" ++ first ++ ") <-> (" ++ second ++ ")")) (some names)).1 =
        .ok .tautology ↔ leftTable = rightTable) ∧
      ((calculator.classify (.text ("~(" ++ first ++ ")")) (some names)).1 =
        .ok .unsatisfiable ↔
        (calculator.classify (.text first) (some names)).1 = .ok .tautology) := by
  have leftLetters : ∀ name ∈ left.letters, name ∈ domain.names := by
    intro name member
    exact leftCovered name ((Formula.mem_support left name).2 member)
  have rightLetters : ∀ name ∈ right.letters, name ∈ domain.names := by
    intro name member
    exact rightCovered name ((Formula.mem_support right name).2 member)
  have composes := composes_tables silent declared leftRead rightRead leftLetters rightLetters
  have nonempty := Table.rows_of_formula_ne_nil left domain
  refine ⟨.ofFormula left domain, .ofFormula right domain, composes, ?_, ?_⟩
  · rw [Calculator.classify_of_table composes.equivalence, Except.ok.injEq]
    exact Table.equivalence_tautology_iff composes.domains composes.assignments nonempty
  · rw [Calculator.classify_of_table composes.negation,
      Calculator.classify_of_table composes.firstTable, Except.ok.injEq, Except.ok.injEq]
    exact Table.complement_unsatisfiable_iff nonempty

theorem tables_of_implication_and_disjunction_compose :
    ∃ leftTable rightTable,
      ComposesTables (fun text => ((Calculator.ofSettings .standard).table (.text text)
        (some ["q", "r", "p"])).1) "p -> q" " ~p v(q)" leftTable rightTable ∧
      (((Calculator.ofSettings .standard).classify (.text "(p -> q) <-> ( ~p v(q))")
        (some ["q", "r", "p"])).1 = .ok .tautology ↔ leftTable = rightTable) ∧
      (((Calculator.ofSettings .standard).classify (.text "~(p -> q)")
        (some ["q", "r", "p"])).1 = .ok .unsatisfiable ↔
        ((Calculator.ofSettings .standard).classify (.text "p -> q")
          (some ["q", "r", "p"])).1 = .ok .tautology) := by
  apply tables_compose (Calculator.ofSettings .standard) "p -> q" " ~p v(q)" ["q", "r", "p"]
    (.binary .implies (.letter 'p') (.letter 'q'))
    (.binary .or (.not (.letter 'p')) (.letter 'q')) ⟨['q', 'r', 'p'], by decide⟩
  · intro terminator present
    cases present
  · decide
  · with_unfolding_all rfl
  · with_unfolding_all rfl
  · simp [Formula.support, Formula.letters, List.eraseDups_cons]
  · simp [Formula.support, Formula.letters, List.eraseDups_cons]

end Propositional
