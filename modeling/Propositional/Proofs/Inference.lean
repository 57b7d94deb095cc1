import Propositional.Proofs.Declaration
import Propositional.Proofs.Display
import Propositional.Proofs.Interruption
import Propositional.Proofs.TrailingTokens
import Propositional.Proofs.Viability

/-!
Variables that are inferred. They are the letters of all the tokens, each once, while a formula has
only the letters which reading it takes. So they suffice for every table, and without trailing
tokens they are just the variables of the formula. Trailing tokens are read over, but their letters
are collected all the same.
-/

namespace Propositional

set_option autoImplicit false

open Interpretation (construction)

namespace Variables

theorem infer_eq_ok_iff (limit : Nat) (tokens : List Token) (domain : Variables) :
    infer limit tokens = .ok domain ↔
      domain.names = (tokens.filterMap Token.name?).eraseDups ∧ domain.size ≤ limit := by
  unfold infer
  by_cases exceeds : limit < (tokens.filterMap Token.name?).eraseDups.length
  · rw [if_pos exceeds]
    constructor
    · intro refused
      cases refused
    · rintro ⟨same, within⟩
      rw [size, same] at within
      exact absurd exceeds (Nat.not_lt.2 within)
  · rw [if_neg exceeds, Except.ok.injEq]
    constructor
    · rintro rfl
      exact ⟨rfl, Nat.not_lt.1 exceeds⟩
    · rintro ⟨same, _⟩
      exact eq_of_names same.symm

theorem infer_error {limit : Nat} {tokens : List Token} {failure : Failure}
    (refused : infer limit tokens = .error failure) :
    failure = .tooMany (tokens.filterMap Token.name?).eraseDups.length limit := by
  unfold infer at refused
  by_cases exceeds : limit < (tokens.filterMap Token.name?).eraseDups.length
  · rw [if_pos exceeds] at refused
    exact (Except.error.inj refused).symm
  · rw [if_neg exceeds] at refused
    cases refused

theorem declare_of_infer {text : String} {tokens : List Token} {limit : Nat} {domain : Variables}
    (cut : tokenize text = .ok tokens) (inferred : infer limit tokens = .ok domain) :
    declare limit (domain.names.map Char.toString) = .ok domain := by
  obtain ⟨same, within⟩ := (infer_eq_ok_iff limit tokens domain).1 inferred
  rw [declare_eq_ok_iff]
  refine ⟨rfl, ?_, within⟩
  intro name member
  rw [same, List.mem_eraseDups] at member
  exact is_variable_of_tokenize cut name member

theorem size_infer_le {text : String} {tokens : List Token} {limit : Nat} {domain : Variables}
    (cut : tokenize text = .ok tokens) (inferred : infer limit tokens = .ok domain) :
    domain.size ≤ variableCount :=
  (size_declare_le (declare_of_infer cut inferred)).2

theorem mem_names_of_infer {tokens : List Token} {limit : Nat} {domain : Variables}
    (inferred : infer limit tokens = .ok domain) {name : Variable}
    (member : name ∈ tokens.filterMap Token.name?) : name ∈ domain.names := by
  rw [((infer_eq_ok_iff limit tokens domain).1 inferred).1, List.mem_eraseDups]
  exact member

end Variables

theorem letters_taken_append (tokens : List Token) :
    lettersTaken tokens ++
        (construction.read .expression tokens ()).rest.filterMap Token.name? =
      tokens.filterMap Token.name? := by
  rw [lettersTaken, ← List.filterMap_append, tokens_taken_append]

theorem letters_taken_inferred {tokens : List Token} {limit : Nat} {domain : Variables}
    (inferred : Variables.infer limit tokens = .ok domain) :
    ∀ name ∈ lettersTaken tokens, name ∈ domain.names := by
  intro name member
  apply Variables.mem_names_of_infer inferred
  rw [← letters_taken_append]
  exact List.mem_append_left _ member

theorem letters_inferred {tokens : List Token} {limit : Nat} {domain : Variables}
    {allowTrailing : Bool} {formula : Formula}
    (inferred : Variables.infer limit tokens = .ok domain)
    (read : Formula.ofTokens tokens allowTrailing = .ok formula) :
    ∀ name ∈ formula.letters, name ∈ domain.names := by
  rw [← letters_taken_of_tree read]
  exact letters_taken_inferred inferred

theorem support_prefix_inferred {tokens : List Token} {limit : Nat} {domain : Variables}
    {allowTrailing : Bool} {formula : Formula}
    (inferred : Variables.infer limit tokens = .ok domain)
    (read : Formula.ofTokens tokens allowTrailing = .ok formula) :
    formula.support <+: domain.names := by
  rw [((Variables.infer_eq_ok_iff limit tokens domain).1 inferred).1, ← letters_taken_append,
    letters_taken_of_tree read, List.eraseDups_append]
  exact List.prefix_append _ _

theorem letters_of_strict {tokens : List Token} {formula : Formula}
    (strict : Formula.ofTokens tokens false = .ok formula) :
    tokens.filterMap Token.name? = formula.letters := by
  obtain ⟨rest, read, complete⟩ := (of_tokens_eq_ok_iff tokens false formula).1 strict
  have empty : rest = [] := by simpa using complete
  have letters := letters_taken_append tokens
  rw [letters_taken_of_tree strict, read, empty] at letters
  exact letters.symm.trans (List.append_nil _)

theorem support_eq_inferred {tokens : List Token} {limit : Nat} {domain : Variables}
    {formula : Formula} (inferred : Variables.infer limit tokens = .ok domain)
    (strict : Formula.ofTokens tokens false = .ok formula) : domain.names = formula.support := by
  rw [((Variables.infer_eq_ok_iff limit tokens domain).1 inferred).1, letters_of_strict strict,
    Formula.support]

/-- Over variables that cover the letters which are read, both strategies find the value of the tree,
or the fault for which there is none. -/
theorem row_value_of_covered {settings : Settings} {tokens : List Token} {domain : Variables}
    {assignment : Assignment} (fits : assignment.IsOver domain)
    (covered : ∀ name ∈ lettersTaken tokens, name ∈ domain.names) :
    settings.rowValue tokens assignment =
      (Formula.ofTokens tokens settings.allowTrailing.value).map
        fun formula => formula.truthOn assignment.valuation := by
  unfold Settings.rowValue
  cases settings.strategy.value with
  | reparse =>
      simp only [evaluate_tokens_eq, first_undefined_of_covered fits covered]
  | tree =>
      cases read : Formula.ofTokens tokens settings.allowTrailing.value with
      | error failure => rfl
      | ok formula =>
          rw [letters_taken_of_tree read] at covered
          exact evaluate_on_assignment covered fits

/-- No row over the variables of the tokens lacks a value for one, whether or not they are a
formula. -/
theorem row_value_ne_undefined {settings : Settings} {tokens : List Token} {limit : Nat}
    {domain : Variables} {assignment : Assignment}
    (inferred : Variables.infer limit tokens = .ok domain) (fits : assignment.IsOver domain)
    (name : Variable) : settings.rowValue tokens assignment ≠ .error (.undefined name) := by
  rw [row_value_of_covered fits (letters_taken_inferred inferred)]
  cases read : Formula.ofTokens tokens settings.allowTrailing.value with
  | error failure =>
      rintro ⟨⟩
      exact of_tokens_ne_undefined tokens _ name read
  | ok formula =>
      intro failed
      cases failed

theorem Calculator.table_of_tokens_error {calculator : Calculator} {tokens : List Token}
    {domain : Variables} {failure : Failure}
    (failed : (calculator.tableOfTokens tokens domain).1 = .error failure) :
    failure = .terminated ∨ ∃ assignment, assignment.IsOver domain ∧
      calculator.settings.rowValue tokens assignment = .error failure := by
  have of_tabulate {evaluate : Assignment → Except Failure Bool}
      (broken : (calculator.tabulate evaluate domain).1 = .error failure) :
      failure = .terminated ∨ ∃ assignment, assignment.IsOver domain ∧
        evaluate assignment = .error failure := by
    rw [tabulate_eq] at broken
    cases rows : (tabulateOver evaluate calculator domain.assignments []).1 with
    | ok found =>
        rw [rows] at broken
        cases broken
    | error fault =>
        rw [rows] at broken
        cases broken
        rcases tabulate_over_error rows with stopped | ⟨assignment, member, fault⟩
        · exact .inl stopped
        · exact .inr ⟨assignment, (domain.mem_assignments assignment).1 member, fault⟩
  unfold tableOfTokens at failed
  unfold Settings.rowValue
  cases strategy : calculator.settings.strategy.value with
  | reparse =>
      rw [strategy] at failed
      exact of_tabulate failed
  | tree =>
      rw [strategy] at failed
      cases read : calculator.formula tokens with
      | error fault =>
          simp only [read] at failed
          cases failed
          have first := domain.assignment_mem_assignments (Nat.two_pow_pos domain.size)
          refine .inr ⟨_, (domain.mem_assignments _).1 first, ?_⟩
          rw [Calculator.formula] at read
          simp only [read]
      | ok formula =>
          simp only [read] at failed
          rw [Calculator.formula] at read
          simp only [read]
          exact of_tabulate failed

/-- The variables inferred from a text can be declared by their names. Those of its formula come
first among them, and without trailing tokens there are no others. A table over them never lacks
one, whatever the calculator and whether or not there is a formula. -/
theorem inferred_variables_suffice (text : String) (limit : Nat) (tokens : List Token)
    (domain : Variables) (cut : tokenize text = .ok tokens)
    (inferred : Variables.infer limit tokens = .ok domain) :
    Variables.declare limit (domain.names.map Char.toString) = .ok domain ∧
      (∀ formula, Formula.ofTokens tokens false = .ok formula → domain.names = formula.support) ∧
      (∀ formula, Formula.ofTokens tokens true = .ok formula →
        formula.support <+: domain.names) ∧
      ∀ (calculator : Calculator) (name : Variable),
        (calculator.tableOfTokens tokens domain).1 ≠ .error (.undefined name) := by
  refine ⟨Variables.declare_of_infer cut inferred, ?strict, ?trailing, ?never⟩
  case strict =>
    intro formula read
    exact support_eq_inferred inferred read
  case trailing =>
    intro formula read
    exact support_prefix_inferred inferred read
  case never =>
    intro calculator name failed
    rcases Calculator.table_of_tokens_error failed with stopped | ⟨assignment, fits, fault⟩
    · cases stopped
    · exact row_value_ne_undefined inferred fits name fault

theorem inferred_variables_suffice_implication :
    Variables.declare 3 ["q", "p", "r"] = .ok ⟨['q', 'p', 'r'], by decide⟩ ∧
      (∀ formula, Formula.ofTokens
        [⟨.letter, "q", 0⟩, ⟨.joining .implies, "->", 2⟩, ⟨.letter, "p", 5⟩, ⟨.negation, "~", 7⟩,
          ⟨.letter, "r", 8⟩] false = .ok formula → ['q', 'p', 'r'] = formula.support) ∧
      (∀ formula, Formula.ofTokens
        [⟨.letter, "q", 0⟩, ⟨.joining .implies, "->", 2⟩, ⟨.letter, "p", 5⟩, ⟨.negation, "~", 7⟩,
          ⟨.letter, "r", 8⟩] true = .ok formula → formula.support <+: ['q', 'p', 'r']) ∧
      ∀ (calculator : Calculator) (name : Variable),
        (calculator.tableOfTokens
          [⟨.letter, "q", 0⟩, ⟨.joining .implies, "->", 2⟩, ⟨.letter, "p", 5⟩, ⟨.negation, "~", 7⟩,
            ⟨.letter, "r", 8⟩] ⟨['q', 'p', 'r'], by decide⟩).1 ≠ .error (.undefined name) := by
  apply inferred_variables_suffice "q -> p ~r" 3 _ ⟨['q', 'p', 'r'], by decide⟩
  · with_unfolding_all rfl
  · decide

def Settings.lenient : Settings := { Settings.standard with allowTrailing := ⟨false, true, true⟩ }

section

variable {front rest : List Token} {formula : Formula}

theorem Variables.count_of_infer_eq {limit : Nat} {tokens others : List Token}
    (same : infer limit tokens = infer limit others) :
    (tokens.filterMap Token.name?).eraseDups.length =
      (others.filterMap Token.name?).eraseDups.length := by
  cases inferred : infer limit tokens with
  | ok domain =>
      rw [inferred] at same
      rw [← ((infer_eq_ok_iff limit tokens domain).1 inferred).1,
        ← ((infer_eq_ok_iff limit others domain).1 same.symm).1]
  | error failure =>
      rw [inferred] at same
      exact (Failure.tooMany.inj ((infer_error inferred).symm.trans (infer_error same.symm))).1

theorem Variables.infer_append_eq_iff (limit : Nat) (front rest : List Token) :
    infer limit (front ++ rest) = infer limit front ↔
      ∀ name ∈ rest.filterMap Token.name?, name ∈ front.filterMap Token.name? := by
  have split : ((front ++ rest).filterMap Token.name?).eraseDups =
      (front.filterMap Token.name?).eraseDups ++
        ((rest.filterMap Token.name?).removeAll (front.filterMap Token.name?)).eraseDups := by
    rw [List.filterMap_append, List.eraseDups_append]
  constructor
  · intro same name member
    -- equal failures only tell that there are equally many letters, which is enough
    have counts := count_of_infer_eq same
    rw [split, List.length_append] at counts
    by_contra absent
    have further : name ∈ ((rest.filterMap Token.name?).removeAll
        (front.filterMap Token.name?)).eraseDups := by
      rw [List.mem_eraseDups, List.removeAll, List.mem_filter]
      exact ⟨member, by simpa using absent⟩
    have positive := List.length_pos_of_mem further
    omega
  · intro contained
    have nothing : (rest.filterMap Token.name?).removeAll (front.filterMap Token.name?) = [] := by
      rw [List.removeAll, List.filter_eq_nil_iff]
      intro name member
      simpa using contained name member
    unfold infer
    simp only [split, nothing, List.eraseDups_nil, List.append_nil]

theorem Calculator.table_of_inferred {calculator : Calculator} {tokens : List Token}
    (read : calculator.formula tokens = .ok formula) (silent : calculator.NeverStops) :
    (calculator.table (.tokens tokens) none).1 =
      (calculator.infer tokens).map (Table.ofFormula formula) := by
  cases inferred : calculator.infer tokens with
  | error failure =>
      have refused : calculator.table (.tokens tokens) none = (.error failure, calculator) :=
        table_of_declare_fault rfl inferred
      rw [refused]
      rfl
  | ok domain =>
      have covered : ∀ name ∈ formula.letters, name ∈ domain.names := letters_inferred inferred read
      exact table_of_tree rfl inferred read covered silent

theorem Table.map_of_formula_eq_iff (formula : Formula) (first second : Except Failure Variables) :
    first.map (ofFormula formula) = second.map (ofFormula formula) ↔ first = second := by
  constructor
  · intro same
    cases first with
    | error failure =>
        cases second with
        | error other => exact congrArg Except.error (Except.error.inj same)
        | ok domain => cases same
    | ok domain =>
        cases second with
        | error failure => cases same
        | ok other => exact congrArg Except.ok (congrArg Table.domain (Except.ok.inj same))
  · rintro rfl
    rfl

/-- Tokens behind a complete expression have no part in its values, but their letters are among the
variables. So the table, or the failure in its place, is that of the expression alone just when they
bring no further letter. -/
theorem trailing_letters_are_inferred (calculator : Calculator) (front rest : List Token)
    (formula : Formula) (derived : Derives .expression front formula)
    (apart : ∀ token ∈ rest.head?, ∀ connective, token.kind ≠ .joining connective)
    (allowed : calculator.settings.allowTrailing.value = true) (silent : calculator.NeverStops) :
    (calculator.table (.tokens (front ++ rest)) none).1 =
        (calculator.infer (front ++ rest)).map (Table.ofFormula formula) ∧
      ((calculator.table (.tokens (front ++ rest)) none).1 =
          (calculator.table (.tokens front) none).1 ↔
        ∀ name ∈ rest.filterMap Token.name?, name ∈ formula.support) := by
  have strict := (of_tokens_iff_derives front formula).2 derived
  have whole : (calculator.table (.tokens (front ++ rest)) none).1 =
      (calculator.infer (front ++ rest)).map (Table.ofFormula formula) :=
    Calculator.table_of_inferred (of_tokens_append derived (.of_apart apart) allowed) silent
  have alone : (calculator.table (.tokens front) none).1 =
      (calculator.infer front).map (Table.ofFormula formula) :=
    Calculator.table_of_inferred (of_tokens_ok_of_strict strict _) silent
  refine ⟨whole, ?_⟩
  rw [whole, alone, Table.map_of_formula_eq_iff,
    Calculator.infer, Calculator.infer, Variables.infer_append_eq_iff, letters_of_strict strict]
  simp only [Formula.mem_support]

theorem trailing_letters_are_inferred_pair :
    ((Calculator.ofSettings .lenient).table
        (.tokens ([⟨.letter, "p", 0⟩] ++ [⟨.letter, "q", 2⟩])) none).1 =
        .ok (.ofFormula (.letter 'p') ⟨['p', 'q'], by decide⟩) ∧
      (((Calculator.ofSettings .lenient).table
          (.tokens ([⟨.letter, "p", 0⟩] ++ [⟨.letter, "q", 2⟩])) none).1 =
          ((Calculator.ofSettings .lenient).table (.tokens [⟨.letter, "p", 0⟩]) none).1 ↔
        ∀ name ∈ ['q'], name ∈ ['p']) := by
  have support : (Formula.letter 'p').support = ['p'] := by decide
  rw [← support]
  apply trailing_letters_are_inferred
  · exact .term (.primary (.secondary (.letter (by decide))))
  · rintro token ⟨⟩ connective
    exact Kind.noConfusion
  · rfl
  · intro terminator present
    cases present

/-- The table of `p q` is not that of `p`, although `p` is complete and `q` does not go on with it. -/
theorem trailing_letter_changes_table :
    Derives .expression [⟨.letter, "p", 0⟩] (.letter 'p') ∧
      (∀ connective, (⟨.letter, "q", 2⟩ : Token).kind ≠ .joining connective) ∧
      (Calculator.ofSettings .lenient).NeverStops ∧
      ((Calculator.ofSettings .lenient).table
        (.tokens ([⟨.letter, "p", 0⟩] ++ [⟨.letter, "q", 2⟩])) none).1 ≠
        ((Calculator.ofSettings .lenient).table (.tokens [⟨.letter, "p", 0⟩]) none).1 := by
  refine ⟨.term (.primary (.secondary (.letter (by decide)))), ?apart, ?silent, ?differ⟩
  case apart =>
    intro connective
    exact Kind.noConfusion
  case silent =>
    intro terminator present
    cases present
  case differ => decide +kernel

end

end Propositional
