import Propositional.Calculator
import Propositional.CommandLine.Dialogue
import Propositional.CommandLine.Request

/-!
The service of the command line: it classifies the formula that it is given, or asks for one. It
leaves with 10 if the formula is satisfiable, with 20 if it is not and with 1 after a failure. How a
list of arguments is split into options and their values is left open, and so is what is said in
place of the service when it cannot be split, or asks for help.
-/

namespace Propositional

set_option autoImplicit false

namespace CommandLine

def welcomeLines : List String :=
  ["Welcome to the satisfiability calculator.",
    "Enter a proposition to see if and under what conditions it is satisfiable.",
    "We support the following operators: 'v', '^', '~', '->', '<->', and letters for variables.",
    "Leave the variables empty to use those of the proposition, in order of appearance."]

def formulaPrompt : String := "Enter a proposition below:"

def variablesPrompt : String :=
  "Enter the variables contained in your expression, separated by a space:"

def notUtf8 : String := "stream did not contain valid UTF-8"

def verdictLines : Classification → List String
  | .unsatisfiable => ["The statement is not satisfiable."]
  | .tautology => ["The statement is a tautology."]
  | .satisfiable witnesses =>
      "The statement is satisfied under the following conditions:" ::
        witnesses.map Assignment.display

def exitCode (classification : Classification) : Nat :=
  if classification.isSatisfiable then 10 else 20

/-- Says what a table shows, after the table itself and an empty line if it is to be shown. -/
def report (showTable : Bool) (table : Table) : Dialogue :=
  let verdict :=
    Dialogue.sayLines (verdictLines table.classification) (.leave (exitCode table.classification))
  if showTable then .say table.display (.sayLine "" verdict) else verdict

def conclude (settings : Settings) (showTable : Bool) (formula : String)
    (names : Option (List String)) : Dialogue :=
  match ((Calculator.ofSettings settings).table (.text formula) names).1 with
  | .error failure => .sayLine ("Error: " ++ failure.message) (.leave 1)
  | .ok table => report showTable table

def prompt (question subject : String) (next : String → Dialogue) : Dialogue :=
  .sayLine question (.ask fun line =>
    match lineText? line with
    | none => .sayLine ("Failed to read " ++ subject ++ ": " ++ notUtf8) (.leave 1)
    | some text => next text)

/-- The names in a line; a blank line leaves the variables to be inferred. -/
def namesOfLine (line : String) : Option (List String) :=
  if line.toList.all isBlank then none else some (splitNames line)

def interview (request : Request) : Dialogue :=
  .sayLines welcomeLines (prompt formulaPrompt "a proposition" fun formula =>
    match request.names with
    | some names => conclude request.settings request.showTable formula (some names)
    | none =>
        prompt variablesPrompt "variables" fun line =>
          conclude request.settings request.showTable formula (namesOfLine line))

def serve (request : Request) : Dialogue :=
  match request.formula with
  | some formula => conclude request.settings request.showTable formula request.names
  | none => interview request

/-- A way to split a list of arguments. It can end the program with a dialogue of its own. -/
abbrev Splitter := List String → Except Dialogue Arguments

/-- The program, with its arguments split in the given way. -/
def programWith (splitter : Splitter) (list : List String) : Dialogue :=
  match splitter list with
  | .error ending => ending
  | .ok arguments =>
      match Request.ofArguments arguments with
      | .error fault => .sayLine fault.message (.leave 1)
      | .ok request => serve request

end CommandLine

end Propositional
