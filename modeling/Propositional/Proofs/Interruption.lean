import Propositional.Proofs.Tabulation

/-!
How building a table ends. Faults in the text, in the names and, under the strategy `tree`, in the
tokens are found before the terminator is asked anything. From then on it is asked before each row.
Whether a row has a value depends on the tokens and on which variables are declared, hence on no
row in particular: if the first one has a value they all have, and only the terminator can stop it.
-/

namespace Propositional

set_option autoImplicit false

namespace Terminator

def upcoming (terminator : Terminator) (index : Nat) : Bool :=
  terminator.answers (terminator.asked + index)

def after (terminator : Terminator) (count : Nat) : Terminator :=
  ⟨terminator.answers, terminator.asked + count⟩

end Terminator

namespace Settings

def under (settings : Settings) (strategy : Strategy) : Settings :=
  { settings with strategy := { settings.strategy with value := strategy } }

/-- The value of the formula of some tokens on an assignment, found as the strategy has it. -/
def rowValue (settings : Settings) (tokens : List Token) (assignment : Assignment) :
    Except Failure Bool :=
  match settings.strategy.value with
  | .reparse => evaluateTokens assignment.valuation tokens settings.allowTrailing.value
  | .tree =>
      match Formula.ofTokens tokens settings.allowTrailing.value with
      | .error failure => .error failure
      | .ok formula => formula.evaluate assignment.valuation

end Settings

theorem first_undefined_uniform {first second : Assignment} {domain : Variables}
    (firstFits : first.IsOver domain) (secondFits : second.IsOver domain)
    (names : List Variable) :
    first.valuation.firstUndefined? names = second.valuation.firstUndefined? names := by
  unfold Valuation.firstUndefined?
  congr 1
  funext name
  rw [Bool.eq_iff_iff, Assignment.valuation_is_none_iff firstFits,
    Assignment.valuation_is_none_iff secondFits]

theorem formula_value_uniform {first second : Assignment} {domain : Variables} {formula : Formula}
    {value : Bool} (firstFits : first.IsOver domain) (secondFits : second.IsOver domain)
    (found : formula.evaluate first.valuation = .ok value) :
    ∃ other, formula.evaluate second.valuation = .ok other := by
  rw [Formula.evaluate_eq, first_undefined_uniform firstFits secondFits] at found
  rw [Formula.evaluate_eq]
  cases undefined : second.valuation.firstUndefined? formula.letters with
  | some name =>
      rw [undefined] at found
      cases found
  | none => exact ⟨_, rfl⟩

theorem tokens_value_uniform {first second : Assignment} {domain : Variables}
    {tokens : List Token} {allowTrailing value : Bool}
    (firstFits : first.IsOver domain) (secondFits : second.IsOver domain)
    (found : evaluateTokens first.valuation tokens allowTrailing = .ok value) :
    ∃ other, evaluateTokens second.valuation tokens allowTrailing = .ok other := by
  rw [evaluate_tokens_eq, first_undefined_uniform firstFits secondFits] at found
  rw [evaluate_tokens_eq]
  cases undefined : second.valuation.firstUndefined? (lettersTaken tokens) with
  | some name =>
      rw [undefined] at found
      cases found
  | none =>
      rw [undefined] at found
      cases read : Formula.ofTokens tokens allowTrailing with
      | error failure =>
          rw [read] at found
          cases found
      | ok formula => exact ⟨_, rfl⟩

theorem row_value_uniform {settings : Settings} {tokens : List Token} {domain : Variables}
    {first second : Assignment} {value : Bool} (firstFits : first.IsOver domain)
    (secondFits : second.IsOver domain) (found : settings.rowValue tokens first = .ok value) :
    ∃ other, settings.rowValue tokens second = .ok other := by
  unfold Settings.rowValue at found ⊢
  cases strategy : settings.strategy.value with
  | reparse =>
      rw [strategy] at found
      exact tokens_value_uniform firstFits secondFits found
  | tree =>
      rw [strategy] at found
      cases read : Formula.ofTokens tokens settings.allowTrailing.value with
      | error failure =>
          rw [read] at found
          cases found
      | ok formula =>
          rw [read] at found
          exact formula_value_uniform firstFits secondFits found

theorem covered_of_row_value {settings : Settings} {tokens : List Token} {domain : Variables}
    {assignment : Assignment} {value : Bool} (fits : assignment.IsOver domain)
    (found : settings.rowValue tokens assignment = .ok value) :
    ∃ formula, Formula.ofTokens tokens settings.allowTrailing.value = .ok formula ∧
      ∀ name ∈ formula.letters, name ∈ domain.names := by
  unfold Settings.rowValue at found
  cases read : Formula.ofTokens tokens settings.allowTrailing.value with
  | error failure =>
      cases strategy : settings.strategy.value with
      | reparse =>
          rw [strategy] at found
          simp only [evaluate_tokens_eq, read] at found
          split at found <;> cases found
      | tree =>
          rw [strategy, read] at found
          cases found
  | ok formula =>
      refine ⟨formula, rfl, ?_⟩
      have evaluated : formula.evaluate assignment.valuation = .ok value := by
        cases strategy : settings.strategy.value with
        | reparse =>
            rw [strategy] at found
            rw [← evaluate_tokens_of_tree assignment.valuation read]
            exact found
        | tree =>
            rw [strategy, read] at found
            exact found
      rw [← first_undefined_eq_none_iff fits]
      rw [Formula.evaluate_eq] at evaluated
      cases undefined : assignment.valuation.firstUndefined? formula.letters with
      | none => rfl
      | some name =>
          rw [undefined] at evaluated
          cases evaluated

namespace Calculator

section

variable {calculator : Calculator} {tokens : List Token} {domain : Variables} {table : Table}

theorem first_row_value_of_table
    (built : (calculator.tableOfTokens tokens domain).1 = .ok table) :
    ∃ value, calculator.settings.rowValue tokens (domain.assignment 0) = .ok value := by
  unfold tableOfTokens at built
  unfold Settings.rowValue
  cases strategy : calculator.settings.strategy.value with
  | reparse =>
      rw [strategy] at built
      exact values_of_tabulate built
  | tree =>
      rw [strategy] at built
      cases read : calculator.formula tokens with
      | error failure =>
          simp only [read] at built
          cases built
      | ok formula =>
          simp only [read] at built
          rw [Calculator.formula] at read
          simp only [read]
          exact values_of_tabulate built

/-- A table is built just when there is a formula whose letters are among the variables, and then
it is that of the formula. -/
theorem table_of_tokens_eq_ok_iff (silent : calculator.NeverStops) :
    (calculator.tableOfTokens tokens domain).1 = .ok table ↔
      ∃ formula, calculator.formula tokens = .ok formula ∧
        (∀ name ∈ formula.letters, name ∈ domain.names) ∧ table = .ofFormula formula domain := by
  constructor
  · intro built
    have first := domain.assignment_mem_assignments (Nat.two_pow_pos domain.size)
    obtain ⟨value, found⟩ := first_row_value_of_table built
    obtain ⟨formula, read, covered⟩ :=
      covered_of_row_value ((domain.mem_assignments _).1 first) found
    refine ⟨formula, read, covered, ?_⟩
    rw [table_of_tokens_of_tree silent covered read] at built
    exact (Except.ok.inj built).symm
  · rintro ⟨formula, read, covered, rfl⟩
    exact table_of_tokens_of_tree silent covered read

end

def asking (settings : Settings) (terminator : Terminator) (checks count : Nat) : Calculator :=
  ⟨settings, some (terminator.after count), checks + count⟩

section

variable (settings : Settings) (terminator : Terminator) (checks : Nat)
variable {evaluate : Assignment → Except Failure Bool}

theorem check_asking (count : Nat) :
    (asking settings terminator checks count).check =
      (terminator.upcoming count, asking settings terminator checks (count + 1)) := rfl

theorem tabulate_over_stopped {count : Nat} (assignment : Assignment)
    (assignments : List Assignment) (rows : List Row) (stop : terminator.upcoming count = true) :
    tabulateOver evaluate (asking settings terminator checks count)
        (assignment :: assignments) rows =
      (.error .terminated, asking settings terminator checks (count + 1)) := by
  rw [tabulateOver, check_asking, stop]

theorem tabulate_over_failed {count : Nat} {assignment : Assignment} {failure : Failure}
    (assignments : List Assignment) (rows : List Row) (goesOn : terminator.upcoming count = false)
    (fault : evaluate assignment = .error failure) :
    tabulateOver evaluate (asking settings terminator checks count)
        (assignment :: assignments) rows =
      (.error failure, asking settings terminator checks (count + 1)) := by
  rw [tabulateOver, check_asking, goesOn]
  simp only [fault]

theorem tabulate_over_row {count : Nat} {assignment : Assignment} {value : Bool}
    (assignments : List Assignment) (rows : List Row) (goesOn : terminator.upcoming count = false)
    (found : evaluate assignment = .ok value) :
    tabulateOver evaluate (asking settings terminator checks count)
        (assignment :: assignments) rows =
      tabulateOver evaluate (asking settings terminator checks (count + 1)) assignments
        (⟨assignment, value⟩ :: rows) := by
  rw [tabulateOver, check_asking, goesOn]
  simp only [found]

theorem tabulate_over_interrupted {assignments : List Assignment} {start position : Nat}
    (rows : List Row)
    (found : ∀ assignment ∈ assignments, ∃ value, evaluate assignment = .ok value)
    (lower : start ≤ position) (upper : position < start + assignments.length)
    (stop : terminator.upcoming position = true)
    (goesOn : ∀ index, start ≤ index → index < position → terminator.upcoming index = false) :
    tabulateOver evaluate (asking settings terminator checks start) assignments rows =
      (.error .terminated, asking settings terminator checks (position + 1)) := by
  induction assignments generalizing start rows with
  | nil =>
      simp only [List.length_nil] at upper
      omega
  | cons assignment assignments induction =>
      by_cases here : start = position
      · subst here
        exact tabulate_over_stopped settings terminator checks assignment assignments rows stop
      · obtain ⟨value, rowFound⟩ := found assignment (by simp)
        simp only [List.length_cons] at upper
        rw [tabulate_over_row settings terminator checks assignments rows
          (goesOn start (Nat.le_refl _) (by omega)) rowFound]
        apply induction
        · intro other member
          exact found other (by simp [member])
        · omega
        · omega
        · intro index past before
          exact goesOn index (by omega) before

theorem tabulate_over_complete {assignments : List Assignment} {value : Assignment → Bool}
    {start : Nat} (rows : List Row)
    (found : ∀ assignment ∈ assignments, evaluate assignment = .ok (value assignment))
    (goesOn : ∀ index, start ≤ index → index < start + assignments.length →
      terminator.upcoming index = false) :
    tabulateOver evaluate (asking settings terminator checks start) assignments rows =
      (.ok (rows.reverse ++ assignments.map fun assignment => ⟨assignment, value assignment⟩),
        asking settings terminator checks (start + assignments.length)) := by
  induction assignments generalizing start rows with
  | nil => simp [tabulateOver]
  | cons assignment assignments induction =>
      simp only [List.length_cons] at goesOn
      rw [tabulate_over_row settings terminator checks assignments rows
        (goesOn start (Nat.le_refl _) (by omega)) (found assignment (by simp))]
      rw [induction (⟨assignment, value assignment⟩ :: rows)
        (by intro other member; exact found other (by simp [member]))
        (by intro index past before; exact goesOn index (by omega) (by omega))]
      simp only [List.reverse_cons, List.append_assoc, List.singleton_append, List.map_cons,
        List.length_cons, Nat.add_assoc, Nat.add_comm 1]

end

theorem tabulate_over_uniform (evaluate : Assignment → Except Failure Bool)
    (terminator : Terminator) (checks : Nat) (assignments : List Assignment) (start : Nat)
    (rows : List Row) :
    ∃ result count, ∀ settings,
      tabulateOver evaluate (asking settings terminator checks start) assignments rows =
        (result, asking settings terminator checks count) := by
  induction assignments generalizing start rows with
  | nil => exact ⟨.ok rows.reverse, start, fun settings => rfl⟩
  | cons assignment assignments induction =>
      cases answer : terminator.upcoming start with
      | true =>
          exact ⟨.error .terminated, start + 1, fun settings =>
            tabulate_over_stopped settings terminator checks assignment assignments rows answer⟩
      | false =>
          cases here : evaluate assignment with
          | error failure =>
              exact ⟨.error failure, start + 1, fun settings =>
                tabulate_over_failed settings terminator checks assignments rows answer here⟩
          | ok value =>
              obtain ⟨result, count, rest⟩ := induction (start + 1) (⟨assignment, value⟩ :: rows)
              refine ⟨result, count, ?_⟩
              intro settings
              rw [tabulate_over_row settings terminator checks assignments rows answer here]
              exact rest settings

theorem table_of_cut_fault {calculator : Calculator} {source : Source} {failure : Failure}
    (names : Option (List String)) (fault : source.toTokens = .error failure) :
    calculator.table source names = (.error failure, calculator) := by
  unfold table
  rw [fault]
  rfl

theorem table_of_declare_fault {calculator : Calculator} {source : Source}
    {names : Option (List String)} {tokens : List Token} {failure : Failure}
    (cut : source.toTokens = .ok tokens)
    (fault : calculator.declareOrInfer names tokens = .error failure) :
    calculator.table source names = (.error failure, calculator) := by
  have found : (do
      let tokens ← source.toTokens
      return (tokens, ← calculator.declareOrInfer names tokens)) = Except.error failure := by
    rw [cut]
    change (calculator.declareOrInfer names tokens).bind (fun domain => .ok (tokens, domain)) = _
    rw [fault]
    rfl
  unfold table
  rw [found]

end Calculator

/-- The text has tokens, the names are accepted, and the tokens have a tree if one is needed. -/
structure Ready (settings : Settings) (text : String) (names : List String) (tokens : List Token)
    (domain : Variables) : Prop where
  cut : tokenize text = .ok tokens
  declared : Variables.declare settings.variableLimit.value names = .ok domain
  readable : settings.strategy.value = .tree →
    ∃ formula, Formula.ofTokens tokens settings.allowTrailing.value = .ok formula

/-- The table has a row for each assignment, in their order, and in it the value found there. -/
structure Table.IsFilled (table : Table) (domain : Variables)
    (evaluate : Assignment → Except Failure Bool) : Prop where
  domain_eq : table.domain = domain
  assignments : table.rows.map Row.assignment = domain.assignments
  values : ∀ row ∈ table.rows, evaluate row.assignment = .ok row.value

namespace Calculator

variable {settings : Settings} {text : String} {names : List String} {tokens : List Token}
variable {domain : Variables}

theorem table_of_ready (calculator : Calculator)
    (ready : Ready calculator.settings text names tokens domain) :
    calculator.table (.text text) (some names) =
      calculator.tabulate (calculator.settings.rowValue tokens) domain := by
  have started : calculator.table (.text text) (some names) =
      calculator.tableOfTokens tokens domain := table_of_declared ready.cut ready.declared
  rw [started, tableOfTokens]
  unfold Settings.rowValue
  cases strategy : calculator.settings.strategy.value with
  | reparse => rfl
  | tree =>
      obtain ⟨formula, read⟩ := ready.readable strategy
      simp only [Calculator.formula, read]

theorem table_of_tree_fault (calculator : Calculator) {failure : Failure}
    (cut : tokenize text = .ok tokens)
    (declared : Variables.declare calculator.settings.variableLimit.value names = .ok domain)
    (strategy : calculator.settings.strategy.value = .tree)
    (fault : Formula.ofTokens tokens calculator.settings.allowTrailing.value = .error failure) :
    calculator.table (.text text) (some names) = (.error failure, calculator) := by
  have started : calculator.table (.text text) (some names) =
      calculator.tableOfTokens tokens domain := table_of_declared cut declared
  rw [started, tableOfTokens, strategy]
  simp only [Calculator.formula, fault]

end Calculator

/-- How a table over names ends, in the order in which it is decided. What it results in comes with
the count of the questions that were put to the terminator. -/
structure EndsInOrder (settings : Settings) (answer : Nat → Bool) (text : String)
    (names : List String) (ends : Except Failure Table → Nat → Prop) : Prop where
  lexing : ∀ failure, tokenize text = .error failure → ends (.error failure) 0
  naming : ∀ tokens failure, tokenize text = .ok tokens →
    Variables.declare settings.variableLimit.value names = .error failure →
    ends (.error failure) 0
  reading : ∀ tokens domain failure, tokenize text = .ok tokens →
    Variables.declare settings.variableLimit.value names = .ok domain →
    settings.strategy.value = .tree →
    Formula.ofTokens tokens settings.allowTrailing.value = .error failure →
    ends (.error failure) 0
  stopped : ∀ tokens domain, Ready settings text names tokens domain → answer 0 = true →
    ends (.error .terminated) 1
  failed : ∀ tokens domain failure, Ready settings text names tokens domain →
    answer 0 = false → settings.rowValue tokens (domain.assignment 0) = .error failure →
    ends (.error failure) 1
  uniform : ∀ tokens domain value, Ready settings text names tokens domain →
    settings.rowValue tokens (domain.assignment 0) = .ok value →
    ∀ assignment ∈ domain.assignments, ∃ other, settings.rowValue tokens assignment = .ok other
  interrupted : ∀ tokens domain value position, Ready settings text names tokens domain →
    settings.rowValue tokens (domain.assignment 0) = .ok value → position < 2 ^ domain.size →
    answer position = true → (∀ index < position, answer index = false) →
    ends (.error .terminated) (position + 1)
  complete : ∀ tokens domain value, Ready settings text names tokens domain →
    settings.rowValue tokens (domain.assignment 0) = .ok value →
    (∀ index < 2 ^ domain.size, answer index = false) →
    ∃ table, ends (.ok table) (2 ^ domain.size) ∧
      table.IsFilled domain (settings.rowValue tokens)

theorem row_values_of_first {settings : Settings} {tokens : List Token} {domain : Variables}
    {value : Bool} (found : settings.rowValue tokens (domain.assignment 0) = .ok value) :
    ∀ assignment ∈ domain.assignments,
      ∃ other, settings.rowValue tokens assignment = .ok other := by
  intro assignment member
  have first := domain.assignment_mem_assignments (Nat.two_pow_pos domain.size)
  exact row_value_uniform ((domain.mem_assignments _).1 first)
    ((domain.mem_assignments assignment).1 member) found

namespace Calculator

variable {settings : Settings} {text : String} {names : List String} {tokens : List Token}
variable {domain : Variables} (terminator : Terminator) (checks : Nat)

theorem tabulate_of_rows {evaluate : Assignment → Except Failure Bool} {calculator : Calculator}
    {rows : Except Failure (List Row)} {later : Calculator}
    (run : tabulateOver evaluate calculator domain.assignments [] = (rows, later)) :
    calculator.tabulate evaluate domain = (rows.map fun rows => ⟨domain, rows⟩, later) := by
  rw [tabulate_eq, run]

theorem table_stopped (ready : Ready settings text names tokens domain)
    (stop : terminator.upcoming 0 = true) :
    (asking settings terminator checks 0).table (.text text) (some names) =
      (.error .terminated, asking settings terminator checks 1) := by
  obtain ⟨rest, first⟩ := domain.assignments_eq_cons
  have run : tabulateOver (settings.rowValue tokens) (asking settings terminator checks 0)
      domain.assignments [] = (.error .terminated, asking settings terminator checks 1) := by
    rw [first]
    exact tabulate_over_stopped settings terminator checks _ rest [] stop
  rw [table_of_ready _ ready]
  exact tabulate_of_rows run

theorem table_failed {failure : Failure} (ready : Ready settings text names tokens domain)
    (goesOn : terminator.upcoming 0 = false)
    (fault : settings.rowValue tokens (domain.assignment 0) = .error failure) :
    (asking settings terminator checks 0).table (.text text) (some names) =
      (.error failure, asking settings terminator checks 1) := by
  obtain ⟨rest, first⟩ := domain.assignments_eq_cons
  have run : tabulateOver (settings.rowValue tokens) (asking settings terminator checks 0)
      domain.assignments [] = (.error failure, asking settings terminator checks 1) := by
    rw [first]
    exact tabulate_over_failed settings terminator checks rest [] goesOn fault
  rw [table_of_ready _ ready]
  exact tabulate_of_rows run

theorem table_interrupted {value : Bool} {position : Nat}
    (ready : Ready settings text names tokens domain)
    (found : settings.rowValue tokens (domain.assignment 0) = .ok value)
    (inside : position < 2 ^ domain.size) (stop : terminator.upcoming position = true)
    (goesOn : ∀ index < position, terminator.upcoming index = false) :
    (asking settings terminator checks 0).table (.text text) (some names) =
      (.error .terminated, asking settings terminator checks (position + 1)) := by
  have before : position < 0 + domain.assignments.length := by
    rw [domain.length_assignments, Nat.zero_add]
    exact inside
  have run := tabulate_over_interrupted settings terminator checks [] (row_values_of_first found)
    (Nat.zero_le position) before stop (fun index _ earlier => goesOn index earlier)
  rw [table_of_ready _ ready]
  exact tabulate_of_rows run

theorem table_complete {value : Bool} (ready : Ready settings text names tokens domain)
    (found : settings.rowValue tokens (domain.assignment 0) = .ok value)
    (goesOn : ∀ index < 2 ^ domain.size, terminator.upcoming index = false) :
    ∃ table, (asking settings terminator checks 0).table (.text text) (some names) =
        (.ok table, asking settings terminator checks (2 ^ domain.size)) ∧
      table.IsFilled domain (settings.rowValue tokens) := by
  obtain ⟨values, valuesFound⟩ : ∃ values : Assignment → Bool, ∀ assignment ∈ domain.assignments,
      settings.rowValue tokens assignment = .ok (values assignment) := by
    refine ⟨fun assignment => (settings.rowValue tokens assignment).toOption.getD false, ?_⟩
    intro assignment member
    obtain ⟨other, same⟩ := row_values_of_first found assignment member
    simp only [same, Except.toOption, Option.getD_some]
  have run := tabulate_over_complete settings terminator checks [] valuesFound (by
    intro index _ before
    rw [domain.length_assignments, Nat.zero_add] at before
    exact goesOn index before)
  rw [domain.length_assignments, Nat.zero_add] at run
  refine ⟨⟨domain, domain.assignments.map fun assignment => ⟨assignment, values assignment⟩⟩,
    ?_, rfl, ?_, ?_⟩
  · rw [table_of_ready _ ready]
    exact tabulate_of_rows run
  · rw [List.map_map]
    exact List.map_id _
  · intro row member
    obtain ⟨assignment, inside, rfl⟩ := List.mem_map.1 member
    exact valuesFound assignment inside

/-- Where the tokens have a tree, the strategies find the same and ask as often. -/
theorem table_of_tree_under {formula : Formula} (strategy : Strategy)
    (cut : tokenize text = .ok tokens)
    (read : Formula.ofTokens tokens settings.allowTrailing.value = .ok formula) :
    ∃ result count,
      (asking settings terminator checks 0).table (.text text) (some names) =
        (result, asking settings terminator checks count) ∧
      (asking (settings.under strategy) terminator checks 0).table (.text text) (some names) =
        (result, asking (settings.under strategy) terminator checks count) := by
  have values (chosen : Strategy) : (settings.under chosen).rowValue tokens =
      fun assignment => formula.evaluate assignment.valuation := by
    funext assignment
    cases chosen with
    | reparse => exact evaluate_tokens_of_tree assignment.valuation read
    | tree => simp only [Settings.rowValue, Settings.under, read]
  cases declared : Variables.declare settings.variableLimit.value names with
  | error failure =>
      exact ⟨.error failure, 0, table_of_declare_fault cut declared,
        table_of_declare_fault cut declared⟩
  | ok domain =>
      obtain ⟨rows, count, run⟩ := tabulate_over_uniform
        (fun assignment => formula.evaluate assignment.valuation) terminator checks
        domain.assignments 0 []
      have found (chosen : Strategy) :
          (asking (settings.under chosen) terminator checks 0).table (.text text) (some names) =
            (rows.map fun rows => ⟨domain, rows⟩,
              asking (settings.under chosen) terminator checks count) := by
        have ready : Ready (settings.under chosen) text names tokens domain :=
          ⟨cut, declared, fun _ => ⟨formula, read⟩⟩
        rw [table_of_ready _ ready]
        apply tabulate_of_rows
        rw [← run]
        congr 1
        exact values chosen
      exact ⟨_, count, found settings.strategy.value, found strategy⟩

end Calculator

/-- A table over names ends in order, with the settings as they were and with as many questions put
to the terminator as it takes. Where the tokens have a tree, the strategy makes no difference. -/
theorem table_ends_in_order (settings : Settings) (terminator : Terminator) (checks : Nat)
    (text : String) (names : List String) :
    EndsInOrder settings terminator.upcoming text names (fun result count =>
      (⟨settings, some terminator, checks⟩ : Calculator).table (.text text) (some names) =
        (result, ⟨settings, some (terminator.after count), checks + count⟩)) ∧
    ∀ tokens formula strategy, tokenize text = .ok tokens →
      Formula.ofTokens tokens settings.allowTrailing.value = .ok formula →
      ∃ result count,
        (⟨settings, some terminator, checks⟩ : Calculator).table (.text text) (some names) =
          (result, ⟨settings, some (terminator.after count), checks + count⟩) ∧
        (⟨settings.under strategy, some terminator, checks⟩ : Calculator).table (.text text)
            (some names) =
          (result, ⟨settings.under strategy, some (terminator.after count), checks + count⟩) := by
  constructor
  · constructor
    case lexing =>
      intro failure fault
      exact Calculator.table_of_cut_fault (some names) fault
    case naming =>
      intro tokens failure cut fault
      exact Calculator.table_of_declare_fault cut fault
    case reading =>
      intro tokens domain failure cut declared strategy fault
      exact Calculator.table_of_tree_fault _ cut declared strategy fault
    case stopped =>
      intro tokens domain ready stop
      exact Calculator.table_stopped terminator checks ready stop
    case failed =>
      intro tokens domain failure ready goesOn fault
      exact Calculator.table_failed terminator checks ready goesOn fault
    case uniform =>
      intro tokens domain value _ found
      exact row_values_of_first found
    case interrupted =>
      intro tokens domain value position ready found inside stop goesOn
      exact Calculator.table_interrupted terminator checks ready found inside stop goesOn
    case complete =>
      intro tokens domain value ready found goesOn
      exact Calculator.table_complete terminator checks ready found goesOn
  · intro tokens formula strategy cut read
    exact Calculator.table_of_tree_under terminator checks strategy cut read

/-- Stopped at the third of four rows. -/
example :
    (⟨.standard, some ⟨fun index => index == 2, 0⟩, 0⟩ : Calculator).table (.text "p -> q")
      (some ["p", "q"]) =
    (.error .terminated, ⟨.standard, some ⟨fun index => index == 2, 3⟩, 3⟩) := by
  cbv

end Propositional
