import Mathlib
import Propositional.Proofs.Tabulation

/-!
Tables and classifications against the meaning of formulas, which is fixed by the valuations of
all variables whatever. A formula means the same in two of them which agree on its letters, so the
assignments to finitely many variables decide what holds in all valuations.
-/

namespace Propositional

set_option autoImplicit false

namespace Formula

/-- What a formula says when every variable has a value. -/
def Holds (world : Variable → Bool) : Formula → Prop
  | .letter name => world name = true
  | .not operand => ¬ operand.Holds world
  | .binary .and left right => left.Holds world ∧ right.Holds world
  | .binary .or left right => left.Holds world ∨ right.Holds world
  | .binary .implies left right => left.Holds world → right.Holds world
  | .binary .iff left right => left.Holds world ↔ right.Holds world

theorem truth_eq_true_iff (world : Variable → Bool) (formula : Formula) :
    formula.truth world = true ↔ formula.Holds world := by
  induction formula with
  | letter name => rfl
  | not operand induction =>
      rw [truth, Holds, ← induction]
      cases operand.truth world <;> decide
  | binary connective left right leftInduction rightInduction =>
      cases connective <;> rw [truth, Holds, ← leftInduction, ← rightInduction] <;>
        cases left.truth world <;> cases right.truth world <;> decide

theorem truth_congr {first second : Variable → Bool} (formula : Formula)
    (agree : ∀ name ∈ formula.letters, first name = second name) :
    formula.truth first = formula.truth second := by
  induction formula with
  | letter name => exact agree name (by simp [letters])
  | not operand induction => rw [truth, truth, induction agree]
  | binary connective left right leftInduction rightInduction =>
      have leftSame := leftInduction (by
        intro name member
        exact agree name (List.mem_append_left _ member))
      have rightSame := rightInduction (by
        intro name member
        exact agree name (List.mem_append_right _ member))
      rw [truth, truth, leftSame, rightSame]

theorem truth_on_eq_true_iff {formula : Formula} {domain : Variables} {assignment : Assignment}
    {world : Variable → Bool} (covered : ∀ name ∈ formula.letters, name ∈ domain.names)
    (fits : assignment.IsOver domain) (agrees : assignment.Agrees world) :
    formula.truthOn assignment.valuation = true ↔ formula.Holds world := by
  have same : formula.truthOn assignment.valuation = formula.truth world := by
    apply truth_congr
    intro name member
    rw [Assignment.valuation_of_agrees fits agrees (covered name member)]
    rfl
  rw [same, truth_eq_true_iff]

end Formula

/-- A complete table of the formula: every assignment to the variables stands in one row, and the
value in a row is that of the formula in the valuations of all variables which agree with it. -/
structure Table.IsTruthTable (table : Table) (domain : Variables) (formula : Formula) : Prop where
  domain_eq : table.domain = domain
  length_rows : table.rows.length = 2 ^ domain.size
  distinct : (table.rows.map Row.assignment).Nodup
  complete : ∀ assignment,
    assignment ∈ table.rows.map Row.assignment ↔ assignment.IsOver domain
  possible : ∀ row ∈ table.rows, ∃ world, row.assignment.Agrees world
  value : ∀ row ∈ table.rows, ∀ world, row.assignment.Agrees world →
    (row.value = true ↔ formula.Holds world)

/-- The right classification of the formula. Its witnesses are the assignments which make the
formula hold, in the order of the given list. -/
structure Classification.IsVerdict (classification : Classification) (domain : Variables)
    (assignments : List Assignment) (formula : Formula) : Prop where
  unsatisfiable : classification = .unsatisfiable ↔ ∀ world, ¬ formula.Holds world
  tautology : classification = .tautology ↔ ∀ world, formula.Holds world
  ordered : classification.witnesses.Sublist assignments
  distinct : classification.witnesses.Nodup
  witnesses : (∃ found, classification = .satisfiable found) →
    ∀ assignment, assignment ∈ classification.witnesses ↔
      assignment.IsOver domain ∧ ∀ world, assignment.Agrees world → formula.Holds world

theorem table_of_formula_is_truth_table {formula : Formula} {domain : Variables}
    (covered : ∀ name ∈ formula.letters, name ∈ domain.names) :
    (Table.ofFormula formula domain).IsTruthTable domain formula := by
  have listed := Table.assignments_of_formula formula domain
  have fits : ∀ row ∈ (Table.ofFormula formula domain).rows,
      row.assignment.IsOver domain ∧ row.value = formula.truthOn row.assignment.valuation := by
    intro row member
    obtain ⟨assignment, inside, rfl⟩ := List.mem_map.1 member
    exact ⟨(domain.mem_assignments assignment).1 inside, rfl⟩
  constructor
  · rfl
  · rw [Table.ofFormula, List.length_map, domain.length_assignments]
  · rw [listed]
    exact domain.nodup_assignments
  · intro assignment
    rw [listed]
    exact domain.mem_assignments assignment
  · intro row member
    exact Assignment.exists_agrees (fits row member).1
  · intro row member world agrees
    rw [(fits row member).2]
    exact Formula.truth_on_eq_true_iff covered (fits row member).1 agrees

namespace Table.IsTruthTable

variable {table : Table} {domain : Variables} {formula : Formula}

theorem exists_row (truthTable : table.IsTruthTable domain formula) (world : Variable → Bool) :
    ∃ row ∈ table.rows, row.assignment.Agrees world ∧ (row.value = true ↔ formula.Holds world) := by
  have fits := Assignment.restrict_is_over world domain
  have member := (truthTable.complete _).2 fits
  obtain ⟨row, inside, same⟩ := List.mem_map.1 member
  have agrees : row.assignment.Agrees world := by
    rw [same]
    exact Assignment.restrict_agrees world domain
  exact ⟨row, inside, agrees, truthTable.value row inside world agrees⟩

theorem no_true_rows_iff (truthTable : table.IsTruthTable domain formula) :
    table.trueRows.isEmpty = true ↔ ∀ world, ¬ formula.Holds world := by
  rw [List.isEmpty_iff, trueRows, List.filter_eq_nil_iff]
  constructor
  · intro none world holds
    obtain ⟨row, member, _, value⟩ := truthTable.exists_row world
    exact none row member (value.2 holds)
  · intro never row member isTrue
    obtain ⟨world, agrees⟩ := truthTable.possible row member
    exact never world ((truthTable.value row member world agrees).1 isTrue)

theorem all_rows_true_iff (truthTable : table.IsTruthTable domain formula) :
    table.rows.all Row.value = true ↔ ∀ world, formula.Holds world := by
  rw [List.all_eq_true]
  constructor
  · intro all world
    obtain ⟨row, member, _, value⟩ := truthTable.exists_row world
    exact value.1 (all row member)
  · intro always row member
    obtain ⟨world, agrees⟩ := truthTable.possible row member
    exact (truthTable.value row member world agrees).2 (always world)

theorem mem_true_rows_iff (truthTable : table.IsTruthTable domain formula)
    (assignment : Assignment) :
    assignment ∈ table.trueRows.map Row.assignment ↔
      assignment.IsOver domain ∧ ∀ world, assignment.Agrees world → formula.Holds world := by
  constructor
  · intro member
    obtain ⟨row, inside, rfl⟩ := List.mem_map.1 member
    obtain ⟨rowMember, isTrue⟩ := List.mem_filter.1 inside
    refine ⟨(truthTable.complete _).1 (List.mem_map_of_mem rowMember), ?_⟩
    intro world agrees
    exact (truthTable.value row rowMember world agrees).1 isTrue
  · rintro ⟨fits, holds⟩
    obtain ⟨row, rowMember, rfl⟩ := List.mem_map.1 ((truthTable.complete assignment).2 fits)
    obtain ⟨world, agrees⟩ := truthTable.possible row rowMember
    have isTrue := (truthTable.value row rowMember world agrees).2 (holds world agrees)
    exact List.mem_map_of_mem (List.mem_filter.2 ⟨rowMember, isTrue⟩)

theorem true_rows_sublist (table : Table) :
    (table.trueRows.map Row.assignment).Sublist (table.rows.map Row.assignment) :=
  List.filter_sublist.map Row.assignment

theorem is_verdict (truthTable : table.IsTruthTable domain formula) :
    table.classification.IsVerdict domain (table.rows.map Row.assignment) formula := by
  have world : Variable → Bool := fun _ => true
  unfold classification
  by_cases none : table.trueRows.isEmpty = true
  · have never := truthTable.no_true_rows_iff.1 none
    rw [if_pos none]
    constructor
    · exact ⟨fun _ => never, fun _ => rfl⟩
    · constructor
      · intro same
        cases same
      · intro always
        exact absurd (always world) (never world)
    · exact List.nil_sublist _
    · exact List.nodup_nil
    · rintro ⟨found, same⟩
      cases same
  · have sometimes : ¬ ∀ world, ¬ formula.Holds world := by
      rw [← truthTable.no_true_rows_iff]
      exact none
    rw [if_neg none]
    by_cases all : table.rows.all Row.value = true
    · have always := truthTable.all_rows_true_iff.1 all
      rw [if_pos all]
      constructor
      · constructor
        · intro same
          cases same
        · intro never
          exact absurd never sometimes
      · exact ⟨fun _ => always, fun _ => rfl⟩
      · exact List.nil_sublist _
      · exact List.nodup_nil
      · rintro ⟨found, same⟩
        cases same
    · have notAlways : ¬ ∀ world, formula.Holds world := by
        rw [← truthTable.all_rows_true_iff]
        exact all
      rw [if_neg all]
      constructor
      · constructor
        · intro same
          cases same
        · intro never
          exact absurd never sometimes
      · constructor
        · intro same
          cases same
        · intro always
          exact absurd always notAlways
      · exact true_rows_sublist table
      · exact truthTable.distinct.sublist (true_rows_sublist table)
      · intro _
        exact truthTable.mem_true_rows_iff

end Table.IsTruthTable

/-- The table of a text that reads to a formula, over names which are accepted and among which all
variables of the formula are, is complete and right under every strategy and all settings, as long
as the terminator does not stop it; and the classification of the text is right. -/
theorem classification_of_text_is_verdict (calculator : Calculator) (text : String)
    (names : List String) (tokens : List Token) (domain : Variables) (formula : Formula)
    (cut : tokenize text = .ok tokens) (declared : calculator.declare names = .ok domain)
    (read : calculator.formula tokens = .ok formula)
    (covered : ∀ name ∈ formula.support, name ∈ domain.names)
    (silent : calculator.NeverStops) :
    ∃ table classification,
      (calculator.table (.text text) (some names)).1 = .ok table ∧
      table.IsTruthTable domain formula ∧
      (calculator.classify (.text text) (some names)).1 = .ok classification ∧
      classification.IsVerdict domain (table.rows.map Row.assignment) formula := by
  have lettersCovered : ∀ name ∈ formula.letters, name ∈ domain.names := by
    intro name member
    exact covered name ((Formula.mem_support formula name).2 member)
  have truthTable := table_of_formula_is_truth_table lettersCovered
  have built : (calculator.table (.text text) (some names)).1 =
      .ok (Table.ofFormula formula domain) :=
    Calculator.table_of_tree cut declared read lettersCovered silent
  refine ⟨_, _, built, truthTable, ?_, truthTable.is_verdict⟩
  unfold Calculator.classify
  simp only [built]
  rfl

theorem classification_of_implication_is_verdict :
    ∃ table classification,
      ((Calculator.ofSettings .standard).table (.text "~p -> q") (some ["q", "r", "p"])).1 =
        .ok table ∧
      table.IsTruthTable ⟨['q', 'r', 'p'], by decide⟩
        (.binary .implies (.not (.letter 'p')) (.letter 'q')) ∧
      ((Calculator.ofSettings .standard).classify (.text "~p -> q") (some ["q", "r", "p"])).1 =
        .ok classification ∧
      classification.IsVerdict ⟨['q', 'r', 'p'], by decide⟩ (table.rows.map Row.assignment)
        (.binary .implies (.not (.letter 'p')) (.letter 'q')) := by
  apply classification_of_text_is_verdict (Calculator.ofSettings .standard) "~p -> q"
    ["q", "r", "p"] [⟨.negation, "~", 0⟩, ⟨.letter, "p", 1⟩, ⟨.joining .implies, "->", 3⟩,
      ⟨.letter, "q", 6⟩]
  · cbv
  · decide
  · cbv
  · simp [Formula.support, Formula.letters, List.eraseDups_cons]
  · intro terminator present
    cases present

end Propositional
