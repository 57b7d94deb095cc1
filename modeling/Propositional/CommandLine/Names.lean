import Propositional.Text.Blank

/-!
Lists of names in one text. Names are separated by blank characters and commas, any number
of them, and separators at either end separate nothing.
-/

namespace Propositional

set_option autoImplicit false

namespace CommandLine

def isSeparator (character : Char) : Bool := isBlank character || character == ','

def splitNames (text : String) : List String :=
  ((text.toList.splitOnP isSeparator).filter (· ≠ [])).map String.ofList

end CommandLine

end Propositional
