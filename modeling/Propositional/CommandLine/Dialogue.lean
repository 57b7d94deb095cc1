/-!
Dialogues: what a program says, the lines it asks for and the code it leaves with. A dialogue
is carried out on a given input by `run`. Lines are taken from the input as bytes, each with its
line feed, and only a line that was asked for has to be UTF-8.
-/

namespace Propositional

set_option autoImplicit false

inductive Dialogue where
  | say (text : String) (next : Dialogue)
  | ask (next : List UInt8 → Dialogue)
  | leave (code : Nat)

/-- The bytes up to the first line feed, which is included, and those after it. -/
def takeLine (input : List UInt8) : List UInt8 × List UInt8 :=
  match input.span (· ≠ 10) with
  | (line, []) => (line, [])
  | (line, feed :: rest) => (line ++ [feed], rest)

/-- The text of a line without the line feeds and carriage returns at its end. -/
def lineText? (line : List UInt8) : Option String :=
  (String.fromUTF8? ⟨line.toArray⟩).map fun text =>
    String.ofList (text.toList.reverse.dropWhile (fun character =>
      character == '\n' || character == '\r')).reverse

namespace Dialogue

def sayLine (text : String) (next : Dialogue) : Dialogue := .say (text ++ "\n") next

def sayLines (lines : List String) (next : Dialogue) : Dialogue := lines.foldr sayLine next

def run : Dialogue → List UInt8 → String × Nat
  | .say text next, input =>
      let (said, code) := next.run input
      (text ++ said, code)
  | .ask next, input =>
      let (line, rest) := takeLine input
      (next line).run rest
  | .leave code, _ => ("", code)

end Dialogue

end Propositional
