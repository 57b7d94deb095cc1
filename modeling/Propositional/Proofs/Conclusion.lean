import Propositional.CommandLine.Program
import Propositional.Proofs.Classification
import Propositional.Proofs.Interruption

/-!
What the program concludes about a formula. A table that is built is the complete table of a formula,
so the code and the lines the program leaves with say what holds in all valuations. A failure, on
whatever row, leaves no line but its own.
-/

namespace Propositional

set_option autoImplicit false

namespace CommandLine

def printed (lines : List String) : String := String.join (lines.map (· ++ "\n"))

theorem printed_cons (line : String) (lines : List String) :
    printed (line :: lines) = line ++ "\n" ++ printed lines := by
  rw [printed, List.map_cons, String.join_cons]
  rfl

theorem printed_append (before after : List String) :
    printed (before ++ after) = printed before ++ printed after := by
  rw [printed, List.map_append, String.join_append]
  rfl

theorem printed_nil : printed [] = "" := rfl

theorem run_say (text : String) (next : Dialogue) (input : List UInt8) :
    (Dialogue.say text next).run input = (text ++ (next.run input).1, (next.run input).2) := rfl

theorem run_say_lines (lines : List String) (next : Dialogue) (input : List UInt8) :
    (Dialogue.sayLines lines next).run input =
      (printed lines ++ (next.run input).1, (next.run input).2) := by
  induction lines with
  | nil => simp [Dialogue.sayLines, printed]
  | cons line lines induction =>
      have opened : Dialogue.sayLines (line :: lines) next =
        .say (line ++ "\n") (.sayLines lines next) := rfl
      rw [opened, run_say, induction, printed_cons]
      simp only [String.append_assoc]

theorem run_report (showTable : Bool) (table : Table) (input : List UInt8) :
    (report showTable table).run input =
      ((if showTable then table.display ++ "\n" else "") ++
          printed (verdictLines table.classification),
        exitCode table.classification) := by
  have verdict : (Dialogue.sayLines (verdictLines table.classification)
      (.leave (exitCode table.classification))).run input =
        (printed (verdictLines table.classification), exitCode table.classification) := by
    rw [run_say_lines]
    simp [Dialogue.run]
  unfold report
  cases showTable with
  | false => simp [verdict]
  | true => simp [run_say, Dialogue.sayLine, verdict, String.append_assoc]

/-- With its conditions, a statement takes up more than any other verdict. -/
theorem printed_conditions_ne (witnesses : List Assignment) {text : String}
    (short : text.length ≤ 34) :
    printed (verdictLines (.satisfiable witnesses)) ≠ text := by
  have heading : ("The statement is satisfied under the following conditions:" ++ "\n").length =
      59 := by decide
  rintro rfl
  rw [verdictLines, printed_cons, String.length_append, heading] at short
  omega

theorem printed_verdict_eq_tautology_iff (classification : Classification) :
    printed (verdictLines classification) = "The statement is a tautology.\n" ↔
      classification = .tautology := by
  cases classification with
  | unsatisfiable => decide
  | tautology => decide
  | satisfiable witnesses =>
      have apart := printed_conditions_ne witnesses
        (show "The statement is a tautology.\n".length ≤ 34 by decide)
      simp [apart]

theorem printed_verdict_eq_unsatisfiable_iff (classification : Classification) :
    printed (verdictLines classification) = "The statement is not satisfiable.\n" ↔
      classification = .unsatisfiable := by
  cases classification with
  | unsatisfiable => decide
  | tautology => decide
  | satisfiable witnesses =>
      have apart := printed_conditions_ne witnesses
        (show "The statement is not satisfiable.\n".length ≤ 34 by decide)
      simp [apart]

/-- What stands in place of a table: a fault of the text, of the variables, or of some row. -/
inductive Fails (settings : Settings) (text : String) (names : Option (List String)) :
    Failure → Prop where
  | tokenizing {failure : Failure} (fault : tokenize text = .error failure) :
      Fails settings text names failure
  | declaring {tokens : List Token} {failure : Failure} (cut : tokenize text = .ok tokens)
      (fault : (Calculator.ofSettings settings).declareOrInfer names tokens = .error failure) :
      Fails settings text names failure
  | tabulating {tokens : List Token} {domain : Variables} {failure : Failure}
      (cut : tokenize text = .ok tokens)
      (declared : (Calculator.ofSettings settings).declareOrInfer names tokens = .ok domain)
      (fault : ((Calculator.ofSettings settings).tableOfTokens tokens domain).1 = .error failure) :
      Fails settings text names failure

theorem never_stops_of_settings (settings : Settings) :
    (Calculator.ofSettings settings).NeverStops := by
  intro terminator present
  cases present

section

variable {settings : Settings} {text : String} {names : Option (List String)}

theorem table_of_fails {failure : Failure} (fails : Fails settings text names failure) :
    ((Calculator.ofSettings settings).table (.text text) names).1 = .error failure := by
  cases fails with
  | tokenizing fault =>
      have cutFault : (Source.text text).toTokens = .error failure := fault
      rw [Calculator.table_of_cut_fault names cutFault]
  | @declaring tokens _ cut fault =>
      have tokensCut : (Source.text text).toTokens = .ok tokens := cut
      rw [Calculator.table_of_declare_fault tokensCut fault]
  | @tabulating tokens _ _ cut declared fault =>
      have tokensCut : (Source.text text).toTokens = .ok tokens := cut
      rw [Calculator.table_of_declared tokensCut declared]
      exact fault

theorem fails_or_table (settings : Settings) (text : String) (names : Option (List String)) :
    (∃ failure, Fails settings text names failure) ∨
      ∃ tokens domain formula, tokenize text = .ok tokens ∧
        (Calculator.ofSettings settings).declareOrInfer names tokens = .ok domain ∧
        (Calculator.ofSettings settings).formula tokens = .ok formula ∧
        (∀ name ∈ formula.letters, name ∈ domain.names) ∧
        ((Calculator.ofSettings settings).table (.text text) names).1 =
          .ok (.ofFormula formula domain) := by
  cases cut : tokenize text with
  | error fault => exact .inl ⟨fault, .tokenizing cut⟩
  | ok tokens =>
      cases declared : (Calculator.ofSettings settings).declareOrInfer names tokens with
      | error fault => exact .inl ⟨fault, .declaring cut declared⟩
      | ok domain =>
          cases built : ((Calculator.ofSettings settings).tableOfTokens tokens domain).1 with
          | error fault => exact .inl ⟨fault, .tabulating cut declared built⟩
          | ok table =>
              have silent := never_stops_of_settings settings
              have tokensCut : (Source.text text).toTokens = .ok tokens := cut
              obtain ⟨formula, read, covered, rfl⟩ :=
                (Calculator.table_of_tokens_eq_ok_iff silent).1 built
              refine .inr ⟨tokens, domain, formula, rfl, declared, read, covered, ?_⟩
              rw [Calculator.table_of_declared tokensCut declared]
              exact built

end

/-- The code and the lines for a formula say what holds in all valuations of all variables. The
assignments to its variables are given in the order of the rows. -/
structure StatesVerdict (domain : Variables) (assignments : List Assignment) (formula : Formula)
    (result : String) (code : Nat) : Prop where
  satisfiable : code = 10 ↔ ∃ world, formula.Holds world
  unsatisfiable : code = 20 ↔ ∀ world, ¬ formula.Holds world
  tautologyLine : result = "The statement is a tautology.\n" ↔ ∀ world, formula.Holds world
  unsatisfiableLine :
    result = "The statement is not satisfiable.\n" ↔ ∀ world, ¬ formula.Holds world
  conditions : (∃ world, formula.Holds world) → (¬ ∀ world, formula.Holds world) →
    ∃ witnesses : List Assignment,
      result = printed ("The statement is satisfied under the following conditions:" ::
        witnesses.map Assignment.display) ∧
      witnesses.Sublist assignments ∧ witnesses.Nodup ∧
      ∀ assignment, assignment ∈ witnesses ↔
        assignment.IsOver domain ∧ ∀ world, assignment.Agrees world → formula.Holds world

/-- What the program says of a text, and the code it leaves with. -/
structure Concludes (settings : Settings) (showTable : Bool) (text : String)
    (names : Option (List String)) (said : String) (code : Nat) : Prop where
  failed : ∀ failure, Fails settings text names failure →
    said = "Error: " ++ failure.message ++ "\n"
  failedCode : code = 1 ↔ ∃ failure, Fails settings text names failure
  found : (¬ ∃ failure, Fails settings text names failure) →
    ∃ (tokens : List Token) (domain : Variables) (formula : Formula) (table : Table)
      (result : String), tokenize text = .ok tokens ∧
      (Calculator.ofSettings settings).declareOrInfer names tokens = .ok domain ∧
      (Calculator.ofSettings settings).formula tokens = .ok formula ∧
      table.IsTruthTable domain formula ∧ table.rows.map Row.assignment = domain.assignments ∧
      said = (if showTable then table.display ++ "\n" else "") ++ result ∧
      StatesVerdict domain domain.assignments formula result code

theorem exit_code_eq_iff (classification : Classification) :
    (exitCode classification = 10 ↔ classification ≠ .unsatisfiable) ∧
      (exitCode classification = 20 ↔ classification = .unsatisfiable) := by
  cases classification <;> simp [exitCode, Classification.isSatisfiable]

theorem exit_code_ne_one (classification : Classification) : exitCode classification ≠ 1 := by
  cases classification <;> simp [exitCode, Classification.isSatisfiable]

theorem states_verdict_of_is_verdict {classification : Classification} {domain : Variables}
    {assignments : List Assignment} {formula : Formula}
    (verdict : classification.IsVerdict domain assignments formula) :
    StatesVerdict domain assignments formula (printed (verdictLines classification))
      (exitCode classification) where
  satisfiable := by
    rw [(exit_code_eq_iff classification).1, Ne, verdict.unsatisfiable, not_forall_not]
  unsatisfiable := by rw [(exit_code_eq_iff classification).2, verdict.unsatisfiable]
  tautologyLine := by rw [printed_verdict_eq_tautology_iff, verdict.tautology]
  unsatisfiableLine := by rw [printed_verdict_eq_unsatisfiable_iff, verdict.unsatisfiable]
  conditions := by
    intro sometimes notAlways
    cases classification with
    | unsatisfiable =>
        obtain ⟨world, holds⟩ := sometimes
        exact absurd holds (verdict.unsatisfiable.1 rfl world)
    | tautology => exact absurd (verdict.tautology.1 rfl) notAlways
    | satisfiable witnesses =>
        exact ⟨witnesses, rfl, verdict.ordered, verdict.distinct, verdict.witnesses ⟨_, rfl⟩⟩

section

variable {settings : Settings} {text : String} {names : Option (List String)}

theorem concludes_of_fails {failure : Failure} (showTable : Bool)
    (fails : Fails settings text names failure) :
    Concludes settings showTable text names ("Error: " ++ failure.message ++ "\n") 1 where
  failed := by
    intro other otherFails
    have same := (table_of_fails fails).symm.trans (table_of_fails otherFails)
    rw [Except.error.inj same]
  failedCode := ⟨fun _ => ⟨failure, fails⟩, fun _ => rfl⟩
  found := by
    intro nothing
    exact absurd ⟨failure, fails⟩ nothing

theorem concludes_of_table {tokens : List Token} {domain : Variables} {formula : Formula}
    (showTable : Bool) (cut : tokenize text = .ok tokens)
    (declared : (Calculator.ofSettings settings).declareOrInfer names tokens = .ok domain)
    (read : (Calculator.ofSettings settings).formula tokens = .ok formula)
    (covered : ∀ name ∈ formula.letters, name ∈ domain.names)
    (built : ((Calculator.ofSettings settings).table (.text text) names).1 =
      .ok (.ofFormula formula domain)) :
    Concludes settings showTable text names
      ((if showTable then (Table.ofFormula formula domain).display ++ "\n" else "") ++
        printed (verdictLines (Table.ofFormula formula domain).classification))
      (exitCode (Table.ofFormula formula domain).classification) := by
  have nothing : ¬ ∃ failure, Fails settings text names failure := by
    rintro ⟨failure, fails⟩
    rw [table_of_fails fails] at built
    cases built
  have listed := Table.assignments_of_formula formula domain
  have truthTable := table_of_formula_is_truth_table covered
  have verdict := truthTable.is_verdict
  rw [listed] at verdict
  refine ⟨?failed, ?failedCode, ?found⟩
  case failed =>
    intro failure fails
    exact absurd ⟨failure, fails⟩ nothing
  case failedCode =>
    constructor
    · intro one
      exact absurd one (exit_code_ne_one _)
    · intro fails
      exact absurd fails nothing
  case found =>
    intro _
    exact ⟨tokens, domain, formula, _, _, cut, declared, read, truthTable, listed, rfl,
      states_verdict_of_is_verdict verdict⟩

end

theorem run_conclude (settings : Settings) (showTable : Bool) (text : String)
    (names : Option (List String)) :
    ∃ said code, (∀ input, (conclude settings showTable text names).run input = (said, code)) ∧
      Concludes settings showTable text names said code := by
  rcases fails_or_table settings text names with ⟨failure, fails⟩ | built
  · refine ⟨_, _, ?_, concludes_of_fails showTable fails⟩
    intro input
    unfold conclude
    rw [table_of_fails fails]
    simp [Dialogue.sayLine, Dialogue.run]
  · obtain ⟨tokens, domain, formula, cut, declared, read, covered, built⟩ := built
    refine ⟨_, _, ?_, concludes_of_table showTable cut declared read covered built⟩
    intro input
    unfold conclude
    rw [built]
    exact run_report showTable _ input

/-- The text and the names that the program is given by a request or by the lines of its input, and
what it says while it asks for them. -/
inductive Delivers (request : Request) (input : List UInt8) :
    String → Option (List String) → String → Prop where
  | given {text : String} (formula : request.formula = some text) :
      Delivers request input text request.names ""
  | asked {text : String} {names : List String} (formula : request.formula = none)
      (given : request.names = some names) (line : lineText? (takeLine input).1 = some text) :
      Delivers request input text (some names) (printed (welcomeLines ++ [formulaPrompt]))
  | askedTwice {text line : String} (formula : request.formula = none)
      (names : request.names = none) (first : lineText? (takeLine input).1 = some text)
      (second : lineText? (takeLine (takeLine input).2).1 = some line) :
      Delivers request input text (namesOfLine line)
        (printed (welcomeLines ++ [formulaPrompt, variablesPrompt]))

theorem run_prompt {question subject : String} {next : String → Dialogue} {input : List UInt8}
    {text : String} (read : lineText? (takeLine input).1 = some text) :
    (prompt question subject next).run input =
      (question ++ "\n" ++ ((next text).run (takeLine input).2).1,
        ((next text).run (takeLine input).2).2) := by
  simp only [prompt, Dialogue.sayLine, Dialogue.run, read]

theorem run_serve {request : Request} {input : List UInt8} {text preface : String}
    {names : Option (List String)} (delivers : Delivers request input text names preface) :
    ∃ rest, (serve request).run input =
      (preface ++ ((conclude request.settings request.showTable text names).run rest).1,
        ((conclude request.settings request.showTable text names).run rest).2) := by
  cases delivers with
  | given formula =>
      refine ⟨input, ?_⟩
      unfold serve
      rw [formula]
      simp
  | asked formula given line =>
      refine ⟨(takeLine input).2, ?_⟩
      unfold serve interview
      rw [formula, given, run_say_lines, run_prompt line, printed_append, printed_cons, printed_nil]
      simp only [String.append_assoc, String.append_empty]
  | askedTwice formula names first second =>
      refine ⟨(takeLine (takeLine input).2).2, ?_⟩
      unfold serve interview
      rw [formula, names, run_say_lines, run_prompt first]
      simp only [run_prompt second, printed_append, printed_cons, printed_nil,
        String.append_assoc, String.append_empty]

theorem run_program_with {splitter : Splitter} {list : List String} {arguments : Arguments}
    {request : Request} (split : splitter list = .ok arguments)
    (accepted : Request.ofArguments arguments = .ok request) (input : List UInt8) :
    (programWith splitter list).run input = (serve request).run input := by
  unfold programWith
  rw [split]
  simp only [accepted]

/-- Whatever the settings that its arguments are accepted with, the program leaves with 1 just when
there is no table for the text and the names it is given, and then it says nothing else. Otherwise
the code and the lines say of the formula what holds in all valuations, behind the whole table if it
is to be shown. How the arguments were split does not matter, as long as they were. -/
theorem program_concludes_rightly (splitter : Splitter) (list : List String)
    (arguments : Arguments) (request : Request) (input : List UInt8) (text preface : String)
    (names : Option (List String)) (split : splitter list = .ok arguments)
    (accepted : Request.ofArguments arguments = .ok request)
    (delivers : Delivers request input text names preface) :
    ∃ said code, (programWith splitter list).run input = (preface ++ said, code) ∧
      Concludes request.settings request.showTable text names said code := by
  obtain ⟨said, code, run, concludes⟩ :=
    run_conclude request.settings request.showTable text names
  obtain ⟨rest, served⟩ := run_serve delivers
  refine ⟨said, code, ?_, concludes⟩
  rw [run_program_with split accepted, served, run rest]

theorem program_concludes_rightly_implication :
    ∃ said code,
      (programWith splitArguments ["-t", "--strategy=reparse", "p -> q"]).run [] =
        ("" ++ said, code) ∧
      Concludes { Settings.standard with strategy := ⟨.reparse, .tree, .reparse⟩ } true "p -> q"
        none said code := by
  apply program_concludes_rightly splitArguments ["-t", "--strategy=reparse", "p -> q"]
    { formula := some "p -> q", table := true, strategy := some "reparse" }
    ⟨some "p -> q", none, true,
      { Settings.standard with strategy := ⟨.reparse, .tree, .reparse⟩ }⟩
  · rfl
  · rfl
  · exact .given rfl

example : (program ["-t", "p ^ ~p"]).run [] =
    ("p | value\nT | F\nF | F\n\nThe statement is not satisfiable.\n", 20) := by
  cbv

end CommandLine

end Propositional
