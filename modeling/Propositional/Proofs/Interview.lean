import Propositional.Proofs.Conclusion
import Propositional.Proofs.Lines

/-!
Asking for what is not given. A line of input loses the carriage returns at its end, which an
argument keeps, and a line without names leaves the variables to be inferred, as leaving the option
out does. The program still says and concludes the same, whether the formula and the names are typed
in or given as arguments.
-/

namespace Propositional

set_option autoImplicit false

namespace CommandLine

/-- The names that a line stands for when it is given as an argument, and not given if it is
blank. -/
def namesArgument (line : String) : Option String :=
  if line.toList.all isBlank then none else some line

theorem conclude_of_same_tokens (settings : Settings) (showTable : Bool) {first second : String}
    (names : Option (List String)) (same : tokenize first = tokenize second) :
    conclude settings showTable first names = conclude settings showTable second names := by
  have sources : (Source.text first).toTokens = (Source.text second).toTokens := same
  unfold conclude Calculator.table
  rw [sources]

theorem tokenize_of_line {text : String} {line ending : List Char}
    (split : text.toList = line ++ ending) (returns : ∀ character ∈ ending, character = '\r') :
    tokenize (String.ofList line) = tokenize text := by
  rw [tokenize, tokenize, String.toList_ofList, split,
    tokens_from_append_blanks 0 line (blank_of_returns returns)]

theorem names_of_line_eq {text : String} {line ending : List Char}
    (split : text.toList = line ++ ending) (returns : ∀ character ∈ ending, character = '\r') :
    namesOfLine (String.ofList line) = (namesArgument text).map splitNames := by
  have blank := blank_of_returns returns
  have allBlank : text.toList.all isBlank = line.all isBlank := by
    rw [split, List.all_append, List.all_eq_true.2 blank, Bool.and_true]
  have names : splitNames text = splitNames (String.ofList line) := by
    have separate : ∀ character ∈ ending, isSeparator character = true := by
      intro character member
      rw [isSeparator, blank character member, Bool.true_or]
    rw [← String.ofList_toList (s := text), split, split_names_append_separators line separate]
  unfold namesOfLine namesArgument
  rw [String.toList_ofList, allBlank]
  by_cases none : line.all isBlank = true
  · rw [if_pos none, if_pos none]
    rfl
  · rw [if_neg none, if_neg none, ← names]
    rfl

theorem of_arguments_eq_ok_iff (arguments : Arguments) (request : Request) :
    Request.ofArguments arguments = .ok request ↔
      ∃ settings, arguments.settings = .ok settings ∧
        request = ⟨arguments.formula, arguments.names.map splitNames, arguments.table, settings⟩ := by
  unfold Request.ofArguments
  cases arguments.settings with
  | error fault =>
      constructor
      · intro accepted
        cases accepted
      · rintro ⟨settings, chosen, -⟩
        cases chosen
  | ok settings =>
      constructor
      · intro accepted
        cases accepted
        exact ⟨settings, rfl, rfl⟩
      · rintro ⟨other, chosen, rfl⟩
        cases chosen
        rfl

/-- Neither the formula nor the names have to do with whether the settings are accepted. -/
theorem of_arguments_with {arguments : Arguments} {request : Request}
    (accepted : Request.ofArguments arguments = .ok request) (formula names : Option String) :
    Request.ofArguments { arguments with formula := formula, names := names } =
      .ok { request with formula := formula, names := names.map splitNames } := by
  obtain ⟨settings, chosen, rfl⟩ := (of_arguments_eq_ok_iff arguments request).1 accepted
  exact (of_arguments_eq_ok_iff _ _).2 ⟨settings, chosen, rfl⟩

theorem of_arguments_asked {arguments : Arguments} {request : Request}
    (accepted : Request.ofArguments arguments = .ok request) :
    request.formula = arguments.formula ∧ request.names = arguments.names.map splitNames := by
  obtain ⟨settings, chosen, rfl⟩ := (of_arguments_eq_ok_iff arguments request).1 accepted
  exact ⟨rfl, rfl⟩

/-- A formula and names that are typed in, each on a line of its own, are dealt with as those that
are given as arguments. The settings are the same for both, so the program leaves with the same code
and says the same, once it has asked. -/
theorem interview_agrees_with_arguments (splitter : Splitter) (asking giving : List String)
    (arguments : Arguments) (request : Request) (text names : String) (rest input : List UInt8)
    (oneText : '\n' ∉ text.toList) (oneLine : '\n' ∉ names.toList)
    (asked : splitter asking = .ok arguments)
    (noFormula : arguments.formula = none) (noNames : arguments.names = none)
    (given : splitter giving =
      .ok { arguments with formula := some text, names := namesArgument names })
    (accepted : Request.ofArguments arguments = .ok request) :
    ∃ said code, (programWith splitter giving).run input = (said, code) ∧
      (programWith splitter asking).run (utf8Bytes (text ++ "\n" ++ (names ++ "\n")) ++ rest) =
        (printed (welcomeLines ++ [formulaPrompt, variablesPrompt]) ++ said, code) := by
  obtain ⟨line, ending, lineRead, lineSplit, lineReturns⟩ := line_text_of_text oneText
  obtain ⟨nameLine, nameEnding, nameRead, nameSplit, nameReturns⟩ := line_text_of_text oneLine
  have formulaTaken := take_line_of_text oneText (utf8Bytes (names ++ "\n") ++ rest)
  have namesTaken := take_line_of_text oneLine rest
  obtain ⟨requestFormula, requestNames⟩ := of_arguments_asked accepted
  rw [noFormula] at requestFormula
  rw [noNames] at requestNames
  obtain ⟨said, code, concluded, _⟩ := run_conclude request.settings request.showTable text
    ((namesArgument names).map splitNames)
  refine ⟨said, code, ?given, ?asked⟩
  case given =>
    rw [run_program_with given (of_arguments_with accepted _ _)]
    exact concluded input
  case asked =>
    rw [utf8_bytes_append, List.append_assoc]
    have delivers : Delivers request
        (utf8Bytes (text ++ "\n") ++ (utf8Bytes (names ++ "\n") ++ rest)) (String.ofList line)
        (namesOfLine (String.ofList nameLine))
        (printed (welcomeLines ++ [formulaPrompt, variablesPrompt])) := by
      apply Delivers.askedTwice requestFormula requestNames
      · rw [formulaTaken]
        exact lineRead
      · rw [formulaTaken, namesTaken]
        exact nameRead
    obtain ⟨left, served⟩ := run_serve delivers
    rw [names_of_line_eq nameSplit nameReturns,
      conclude_of_same_tokens _ _ _ (tokenize_of_line lineSplit lineReturns), concluded left]
      at served
    rw [run_program_with asked accepted]
    exact served

/-- The carriage returns are in the arguments, and end the lines. -/
theorem interview_agrees_with_arguments_behind_returns :
    ∃ said code,
      (programWith splitArguments ["-t", "-x", "q p\r", "p -> q\r"]).run [] = (said, code) ∧
      (programWith splitArguments ["-t"]).run
          (utf8Bytes ("p -> q\r" ++ "\n" ++ ("q p\r" ++ "\n")) ++ []) =
        (printed (welcomeLines ++ [formulaPrompt, variablesPrompt]) ++ said, code) := by
  apply interview_agrees_with_arguments splitArguments ["-t"] ["-t", "-x", "q p\r", "p -> q\r"]
    { table := true } ⟨none, none, true, Settings.standard⟩ "p -> q\r" "q p\r" [] []
  · decide
  · decide
  · rfl
  · rfl
  · rfl
  · rfl
  · rfl

end CommandLine

end Propositional
