import Mathlib.Tactic.Ring
import Propositional.Proofs.Classification
import Propositional.Proofs.Composition
import Propositional.Proofs.Declaration

/-!
What the list of variables has to do with a table. The value of a row is that of the variables of
the formula in it. The order of the list is that of the rows, and a further variable repeats all of
them once with each of its values. So the classification is of the same kind over any list, and the
true rows are the same share of all rows.
-/

namespace Propositional

set_option autoImplicit false

/-- The valuation of all variables that has the given values, and those of a world besides. -/
def settle (world : Variable → Bool) (pairs : List (Variable × Bool)) : Variable → Bool :=
  fun name => (pairs.lookup name).getD (world name)

theorem settle_nil (world : Variable → Bool) : settle world [] = world := rfl

theorem settle_cons (world : Variable → Bool) {name : Variable} (value : Bool)
    {pairs : List (Variable × Bool)} (fresh : name ∉ pairs.map Prod.fst) :
    settle world ((name, value) :: pairs) = settle (Function.update world name value) pairs := by
  funext other
  unfold settle
  rw [List.lookup_cons, Function.update_apply]
  by_cases same : other = name
  · subst same
    have absent : pairs.lookup other = none := by
      rw [List.lookup_eq_none_iff]
      intro pair member
      rw [bne_iff_ne]
      rintro rfl
      exact fresh (List.mem_map_of_mem member)
    simp [absent]
  · have different : (other == name) = false := beq_eq_false_iff_ne.2 same
    rw [different, if_neg same]

namespace Formula

/-- How many of the ways to give values to some variables make the formula true, when a world
settles all others. -/
def modelCount (formula : Formula) : List Variable → (Variable → Bool) → Nat
  | [], world => (formula.truth world).toNat
  | name :: names, world =>
      formula.modelCount names (Function.update world name true) +
        formula.modelCount names (Function.update world name false)

variable {formula : Formula}

theorem model_count_congr (names : List Variable) {first second : Variable → Bool}
    (agree : ∀ name ∈ formula.letters, first name = second name) :
    formula.modelCount names first = formula.modelCount names second := by
  induction names generalizing first second with
  | nil => rw [modelCount, modelCount, formula.truth_congr agree]
  | cons name names induction =>
      have updated (value : Bool) :
          formula.modelCount names (Function.update first name value) =
            formula.modelCount names (Function.update second name value) := by
        apply induction
        intro other member
        rw [Function.update_apply, Function.update_apply, agree other member]
      rw [modelCount, modelCount, updated true, updated false]

theorem model_count_perm {names others : List Variable} (same : names.Perm others)
    (world : Variable → Bool) :
    formula.modelCount names world = formula.modelCount others world := by
  induction same generalizing world with
  | nil => rfl
  | cons name _ induction => rw [modelCount, modelCount, induction, induction]
  | swap first second names =>
      by_cases equal : first = second
      · rw [equal]
      · have commute (value other : Bool) :
            Function.update (Function.update world second value) first other =
              Function.update (Function.update world first other) second value :=
          Function.update_comm (Ne.symm equal) value other world
        simp only [modelCount, commute]
        omega
  | trans _ _ first second => rw [first, second]

/-- Each variable which the formula does not have doubles the count. -/
theorem model_count_append {extra : List Variable}
    (absent : ∀ name ∈ extra, name ∉ formula.letters) (names : List Variable)
    (world : Variable → Bool) :
    formula.modelCount (extra ++ names) world =
      2 ^ extra.length * formula.modelCount names world := by
  induction extra generalizing world with
  | nil => simp
  | cons name extra induction =>
      have updated (value : Bool) :
          formula.modelCount names (Function.update world name value) =
            formula.modelCount names world := by
        apply model_count_congr
        intro other member
        apply Function.update_of_ne
        rintro rfl
        exact absent other (by simp) member
      have rest := induction (by intro other member; exact absent other (by simp [member]))
      rw [List.cons_append, modelCount, rest, rest, updated true, updated false,
        List.length_cons, Nat.pow_succ]
      ring

theorem model_count_of_support {names : List Variable} (distinct : names.Nodup)
    (covered : ∀ name ∈ formula.support, name ∈ names) (world : Variable → Bool) :
    formula.modelCount names world * 2 ^ formula.support.length =
      formula.modelCount formula.support world * 2 ^ names.length := by
  have parts := List.filter_append_perm (fun name => decide (name ∉ formula.support)) names
  have used : (names.filter fun name => !decide (name ∉ formula.support)).Perm formula.support := by
    have supportDistinct : formula.support.Nodup := nodup_erase_dups formula.letters
    rw [List.perm_ext_iff_of_nodup (distinct.filter _) supportDistinct]
    intro name
    simp only [List.mem_filter, Bool.not_eq_true', decide_eq_false_iff_not, not_not]
    exact ⟨fun both => both.2, fun member => ⟨covered name member, member⟩⟩
  have arranged := ((List.Perm.append_left _ used).symm.trans parts).symm
  have lengths := arranged.length_eq
  rw [List.length_append] at lengths
  rw [model_count_perm arranged, model_count_append, lengths, Nat.pow_add]
  · ring
  · intro name member letter
    have unused := (List.mem_filter.1 member).2
    rw [decide_eq_true_eq, mem_support] at unused
    exact unused letter

theorem count_all_pairs {names : List Variable} (distinct : names.Nodup)
    (world : Variable → Bool) :
    (allPairs names).countP (fun pairs => formula.truth (settle world pairs)) =
      formula.modelCount names world := by
  induction names generalizing world with
  | nil =>
      have single : allPairs [] = [[]] := rfl
      rw [single, List.countP_singleton, settle_nil, modelCount]
      cases formula.truth world <;> rfl
  | cons name names induction =>
      obtain ⟨fresh, restDistinct⟩ := List.nodup_cons.1 distinct
      have half (value : Bool) :
          ((allPairs names).map ((name, value) :: ·)).countP
              (fun pairs => formula.truth (settle world pairs)) =
            formula.modelCount names (Function.update world name value) := by
        rw [List.countP_map, ← induction restDistinct]
        apply List.countP_congr
        intro pairs member
        rw [← (mem_all_pairs names pairs).1 member] at fresh
        rw [Function.comp_apply, settle_cons world value fresh]
      rw [all_pairs_cons, List.countP_append, half true, half false, modelCount]

end Formula

theorem length_true_rows (formula : Formula) (domain : Variables) :
    (Table.ofFormula formula domain).trueRows.length =
      formula.modelCount domain.names (fun _ => false) := by
  rw [← Formula.count_all_pairs domain.distinct, Table.trueRows, ← List.countP_eq_length_filter,
    Table.ofFormula, List.countP_map, Variables.assignments_eq, List.countP_map]
  rfl

namespace Classification

/-- The classifications differ in their witnesses at most. -/
inductive SameKind : Classification → Classification → Prop where
  | unsatisfiable : SameKind .unsatisfiable .unsatisfiable
  | tautology : SameKind .tautology .tautology
  | satisfiable (witnesses others : List Assignment) :
      SameKind (.satisfiable witnesses) (.satisfiable others)

theorem same_kind_iff (first second : Classification) :
    first.SameKind second ↔
      (first = .unsatisfiable ↔ second = .unsatisfiable) ∧
        (first = .tautology ↔ second = .tautology) := by
  constructor
  · intro same
    cases same <;> simp
  · rintro ⟨unsatisfiable, tautology⟩
    cases first <;> cases second <;> first | constructor | simp at unsatisfiable tautology

end Classification

section

variable {formula : Formula} {first second : Variables}

theorem value_of_agreeing_rows {row other : Row}
    (member : row ∈ (Table.ofFormula formula first).rows)
    (otherMember : other ∈ (Table.ofFormula formula second).rows)
    (agree : ∀ name ∈ formula.support,
      row.assignment.valuation name = other.assignment.valuation name) :
    row.value = other.value := by
  obtain ⟨assignment, _, rfl⟩ := List.mem_map.1 member
  obtain ⟨otherAssignment, _, rfl⟩ := List.mem_map.1 otherMember
  apply Formula.truth_congr
  intro name letter
  rw [agree name ((formula.mem_support name).2 letter)]

theorem classification_same_kind (firstCovers : ∀ name ∈ formula.letters, name ∈ first.names)
    (secondCovers : ∀ name ∈ formula.letters, name ∈ second.names) :
    (Table.ofFormula formula first).classification.SameKind
      (Table.ofFormula formula second).classification := by
  have firstVerdict := (table_of_formula_is_truth_table firstCovers).is_verdict
  have secondVerdict := (table_of_formula_is_truth_table secondCovers).is_verdict
  rw [Classification.same_kind_iff, firstVerdict.unsatisfiable, secondVerdict.unsatisfiable,
    firstVerdict.tautology, secondVerdict.tautology]
  exact ⟨Iff.rfl, Iff.rfl⟩

theorem true_rows_share (firstCovers : ∀ name ∈ formula.support, name ∈ first.names)
    (secondCovers : ∀ name ∈ formula.support, name ∈ second.names) :
    (Table.ofFormula formula first).trueRows.length * 2 ^ second.size =
      (Table.ofFormula formula second).trueRows.length * 2 ^ first.size := by
  have firstCount := Formula.model_count_of_support first.distinct firstCovers (fun _ => false)
  have secondCount := Formula.model_count_of_support second.distinct secondCovers (fun _ => false)
  rw [← length_true_rows] at firstCount secondCount
  apply Nat.eq_of_mul_eq_mul_right (Nat.two_pow_pos formula.support.length)
  calc
    _ = (Table.ofFormula formula first).trueRows.length * 2 ^ formula.support.length *
        2 ^ second.size := by ring
    _ = (Table.ofFormula formula second).trueRows.length * 2 ^ formula.support.length *
        2 ^ first.size := by
          rw [firstCount, secondCount, Variables.size, Variables.size]
          ring
    _ = _ := by ring

end

/-- Any two lists of names which are accepted and name the variables of the formula of a text lead to
tables that present the same: rows that agree on these variables have one value, the classifications
are of one kind, and the true rows are one share of all rows. -/
theorem declared_names_only_present (calculator : Calculator) (text : String)
    (firstNames secondNames : List String) (tokens : List Token) (formula : Formula)
    (first second : Variables) (cut : tokenize text = .ok tokens)
    (read : calculator.formula tokens = .ok formula)
    (firstDeclared : calculator.declare firstNames = .ok first)
    (secondDeclared : calculator.declare secondNames = .ok second)
    (firstCovers : ∀ name ∈ formula.support, name ∈ first.names)
    (secondCovers : ∀ name ∈ formula.support, name ∈ second.names)
    (silent : calculator.NeverStops) :
    ∃ firstTable secondTable,
      (calculator.table (.text text) (some firstNames)).1 = .ok firstTable ∧
      (calculator.table (.text text) (some secondNames)).1 = .ok secondTable ∧
      (∀ row ∈ firstTable.rows, ∀ other ∈ secondTable.rows,
        (∀ name ∈ formula.support,
          row.assignment.valuation name = other.assignment.valuation name) →
        row.value = other.value) ∧
      (calculator.classify (.text text) (some firstNames)).1 = .ok firstTable.classification ∧
      (calculator.classify (.text text) (some secondNames)).1 = .ok secondTable.classification ∧
      firstTable.classification.SameKind secondTable.classification ∧
      firstTable.trueRows.length * 2 ^ secondNames.length =
        secondTable.trueRows.length * 2 ^ firstNames.length := by
  have letters {domain : Variables} (covers : ∀ name ∈ formula.support, name ∈ domain.names) :
      ∀ name ∈ formula.letters, name ∈ domain.names := by
    intro name letter
    exact covers name ((formula.mem_support name).2 letter)
  have firstTable : (calculator.table (.text text) (some firstNames)).1 =
      .ok (.ofFormula formula first) :=
    Calculator.table_of_tree cut firstDeclared read (letters firstCovers) silent
  have secondTable : (calculator.table (.text text) (some secondNames)).1 =
      .ok (.ofFormula formula second) :=
    Calculator.table_of_tree cut secondDeclared read (letters secondCovers) silent
  refine ⟨_, _, firstTable, secondTable, ?values, Calculator.classify_of_table firstTable,
    Calculator.classify_of_table secondTable, ?kinds, ?shares⟩
  case values =>
    intro row member other otherMember agree
    exact value_of_agreeing_rows member otherMember agree
  case kinds => exact classification_same_kind (letters firstCovers) (letters secondCovers)
  case shares =>
    rw [← Variables.size_of_declare firstDeclared, ← Variables.size_of_declare secondDeclared]
    exact true_rows_share firstCovers secondCovers

theorem declared_names_only_present_implication :
    ∃ firstTable secondTable,
      ((Calculator.ofSettings .standard).table (.text "p -> q") (some ["p", "q"])).1 =
        .ok firstTable ∧
      ((Calculator.ofSettings .standard).table (.text "p -> q") (some ["q", "r", "p"])).1 =
        .ok secondTable ∧
      (∀ row ∈ firstTable.rows, ∀ other ∈ secondTable.rows,
        (∀ name ∈ ['p', 'q'],
          row.assignment.valuation name = other.assignment.valuation name) →
        row.value = other.value) ∧
      ((Calculator.ofSettings .standard).classify (.text "p -> q") (some ["p", "q"])).1 =
        .ok firstTable.classification ∧
      ((Calculator.ofSettings .standard).classify (.text "p -> q") (some ["q", "r", "p"])).1 =
        .ok secondTable.classification ∧
      firstTable.classification.SameKind secondTable.classification ∧
      firstTable.trueRows.length * 2 ^ 3 = secondTable.trueRows.length * 2 ^ 2 := by
  have support : (Formula.binary .implies (.letter 'p') (.letter 'q')).support = ['p', 'q'] := by
    simp [Formula.support, Formula.letters, List.eraseDups_cons]
  rw [← support]
  apply declared_names_only_present (Calculator.ofSettings .standard) "p -> q" ["p", "q"]
    ["q", "r", "p"] [⟨.letter, "p", 0⟩, ⟨.joining .implies, "->", 2⟩, ⟨.letter, "q", 5⟩]
    (.binary .implies (.letter 'p') (.letter 'q')) ⟨['p', 'q'], by decide⟩
    ⟨['q', 'r', 'p'], by decide⟩
  · cbv
  · cbv
  · decide
  · decide
  · simp [support]
  · simp [support]
  · intro terminator present
    cases present

end Propositional
