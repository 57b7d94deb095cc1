import Propositional.CommandLine.Service
import Propositional.CommandLine.Splitting

/-!
The program as it is run: the service, behind arguments that are split by the usual rules. Help and
the version are told with code 0, and arguments that cannot be split end the program with 2.
-/

namespace Propositional

set_option autoImplicit false

namespace CommandLine

def versionText : String := "sat_calc 0.0.1"

structure Description where
  heading : String
  lines : List String

namespace Description

def formula : Description where
  heading := "[formula]"
  lines :=
    ["The formula to classify. If no formula is given, a formula is requested.",
      "",
      "Variables are single lowercase letters, other than 'v'.",
      "Connectives are '~' (not), '^' (and), 'v' (or), '->' (implies), and '<->' (if and only if).",
      "For example: \"(p v ~q) ^ (q v ~r) ^ (r v ~p)\""]

def options : List Description :=
  [⟨"-x, --variables <variables>",
      ["The variables of the formula, separated by spaces or commas.",
        "",
        "The order of the variables fixes the order of the truth table.",
        "If no variables are given, the variables of the formula are used in order of first " ++
          "appearance."]⟩,
    ⟨"-t, --table", ["Display the truth table of the formula."]⟩,
    ⟨"    --allow-trailing",
      ["Ignore anything which follows a complete formula, rather than reject the formula."]⟩,
    ⟨"    --strategy <strategy>",
      ["How to evaluate the formula on each row of the truth table: 'reparse' or 'tree'.",
        "Default: " ++ Settings.standard.strategy.value.name]⟩,
    ⟨"    --variable-limit <variable_limit>",
      ["The maximum count of variables.",
        "Default: " ++ toString Settings.standard.variableLimit.value,
        "",
        "A truth table has one row for each assignment to the variables, and so 2^n rows for " ++
          "n variables."]⟩,
    ⟨"-h, --help", ["Print help"]⟩,
    ⟨"-V, --version", ["Print version"]⟩]

def display (description : Description) : List String :=
  ("  " ++ description.heading) :: description.lines.map fun line =>
    if line = "" then "" else "          " ++ line

end Description

def helpLines : List String :=
  ["Determines whether a propositional formula is satisfiable, unsatisfiable, or a tautology", "",
      "Usage: sat_calc [OPTIONS] [formula]", "", "Arguments:"] ++
    Description.formula.display ++ ["", "Options:"] ++
    [""].intercalate (Description.options.map Description.display)

/-- A fault of usage is told by the code alone. -/
def Halt.ending : Halt → Dialogue
  | .help => .sayLines helpLines (.leave 0)
  | .version => .sayLine versionText (.leave 0)
  | _ => .leave 2

def splitArguments : Splitter := fun list => (Arguments.ofList list).mapError Halt.ending

def program (arguments : List String) : Dialogue := programWith splitArguments arguments

end CommandLine

end Propositional
