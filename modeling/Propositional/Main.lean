import Propositional.CommandLine.Program

/-!
The command line of the satisfiability calculator: carries out the program's dialogue on
standard input and standard output.
-/

set_option autoImplicit false

namespace Propositional

partial def readLine (stream : IO.FS.Stream) (line : Array UInt8) : IO (List UInt8) := do
  match (← stream.read 1).toList with
  | [] => return line.toList
  | byte :: _ =>
      let longer := line.push byte
      if byte = 10 then return longer.toList else readLine stream longer

def Dialogue.perform : Dialogue → IO UInt32
  | .say text next => do
      let output ← IO.getStdout
      output.putStr text
      output.flush
      next.perform
  | .ask next => do
      let line ← readLine (← IO.getStdin) #[]
      (next line).perform
  | .leave code => return code.toUInt32

end Propositional

def main (arguments : List String) : IO UInt32 :=
  (Propositional.CommandLine.program arguments).perform
