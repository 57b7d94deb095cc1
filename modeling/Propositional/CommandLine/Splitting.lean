import Propositional.CommandLine.Request
import Propositional.Text.Decimal

/-!
Splitting the arguments of the command line.

An option is named by `--` and its long name or, if it has one, by `-` and its short name.
Short names can be joined behind one `-`. A flag takes no value. The value of any other option
is attached to it, as in `--strategy=tree`, `-x=p` or `-xp`, or else is the next argument, unless
that begins with `-`. An argument which is neither an option nor the value of one is the formula,
and so is every argument after `--`. A lone `-` is not the beginning of a name.

A value that is not attached stays pending until something else is settled, and only then is
the option found to be repeated, to lack its value or to have a malformed one. An unknown name
is refused before anything that is pending.
-/

namespace Propositional

set_option autoImplicit false

namespace CommandLine

inductive Halt where
  | unknownArgument
  | repeatedArgument
  | missingValue
  | needlessValue
  | malformedValue
  | help
  | version
  deriving DecidableEq

inductive Slot where
  | formula
  | names
  | strategy
  | variableLimit
  deriving DecidableEq

inductive Flag where
  | table
  | allowTrailing
  | help
  | version
  deriving DecidableEq

inductive Entry where
  | flag (flag : Flag)
  | slot (slot : Slot)
  deriving DecidableEq

def longNames : List (String × Entry) :=
  [("variables", .slot .names), ("table", .flag .table),
    ("allow-trailing", .flag .allowTrailing), ("strategy", .slot .strategy),
    ("variable-limit", .slot .variableLimit), ("help", .flag .help), ("version", .flag .version)]

def shortNames : List (Char × Entry) :=
  [('x', .slot .names), ('t', .flag .table), ('h', .flag .help), ('V', .flag .version)]

def greatestLimit : Nat := UInt64.size - 1

namespace Arguments

def settle (arguments : Arguments) (slot : Slot) (value : String) : Except Halt Arguments :=
  match slot with
  | .formula =>
      if arguments.formula.isSome then .error .repeatedArgument
      else .ok { arguments with formula := some value }
  | .names =>
      if arguments.names.isSome then .error .repeatedArgument
      else .ok { arguments with names := some value }
  | .strategy =>
      if arguments.strategy.isSome then .error .repeatedArgument
      else .ok { arguments with strategy := some value }
  | .variableLimit =>
      if arguments.variableLimit.isSome then .error .repeatedArgument
      else
        match ofDecimal? greatestLimit value.toList with
        | none => .error .malformedValue
        | some limit => .ok { arguments with variableLimit := some limit }

def raise (arguments : Arguments) : Flag → Except Halt Arguments
  | .table =>
      if arguments.table then .error .repeatedArgument
      else .ok { arguments with table := true }
  | .allowTrailing =>
      if arguments.allowTrailing then .error .repeatedArgument
      else .ok { arguments with allowTrailing := true }
  | .help => .error .help
  | .version => .error .version

end Arguments

structure Progress where
  settled : Arguments := {}
  /-- A slot whose value is yet to be settled, with the value if it has been met. -/
  pending : Option (Slot × Option String) := none
  hasFormula : Bool := false
  onlyFormula : Bool := false

namespace Progress

def resolve (progress : Progress) : Except Halt Progress :=
  match progress.pending with
  | none => .ok progress
  | some (_, none) => .error .missingValue
  | some (slot, some value) => do
      let settled ← progress.settled.settle slot value
      return { progress with settled := settled, pending := none }

def settle (progress : Progress) (slot : Slot) (value : String) : Except Halt Progress := do
  let resolved ← progress.resolve
  let settled ← resolved.settled.settle slot value
  return { resolved with settled := settled }

def raise (progress : Progress) (flag : Flag) : Except Halt Progress := do
  let resolved ← progress.resolve
  let settled ← resolved.settled.raise flag
  return { resolved with settled := settled }

def await (progress : Progress) (slot : Slot) (value : Option String) : Except Halt Progress := do
  let resolved ← progress.resolve
  return { resolved with pending := some (slot, value) }

def readLong (progress : Progress) (name : String) (attached : Option String) :
    Except Halt Progress :=
  match longNames.lookup name, attached with
  | none, _ => .error .unknownArgument
  | some (.flag _), some _ => .error .needlessValue
  | some (.flag flag), none => progress.raise flag
  | some (.slot slot), some value => progress.settle slot value
  | some (.slot slot), none => progress.await slot none

/-- Reads short names joined behind one `-`. The first that has a value takes all that follows
it, less one `=`, or awaits its value if nothing does. -/
def readShort (progress : Progress) : List Char → Except Halt Progress
  | [] => .ok progress
  | name :: rest =>
      match shortNames.lookup name with
      | none => .error .unknownArgument
      | some (.flag flag) => do (← progress.raise flag).readShort rest
      | some (.slot slot) =>
          match rest with
          | [] => progress.await slot none
          | '=' :: value => progress.settle slot (String.ofList value)
          | value => progress.settle slot (String.ofList value)

def readFormula (progress : Progress) (argument : String) : Except Halt Progress := do
  if progress.hasFormula then
    throw .unknownArgument
  let awaiting ← progress.await .formula (some argument)
  return { awaiting with hasFormula := true }

/-- A long name ends before the first `=`, and what follows that is attached to it. -/
def splitLong (argument : List Char) : String × Option String :=
  let (name, attached) := argument.span (· ≠ '=')
  (String.ofList name, attached.tail?.map String.ofList)

def readArgument (progress : Progress) (argument : String) : Except Halt Progress :=
  if progress.onlyFormula then
    progress.readFormula argument
  else
    match argument.toList with
    | ['-', '-'] => .ok { progress with onlyFormula := true }
    | '-' :: '-' :: long => progress.readLong (splitLong long).1 (splitLong long).2
    | '-' :: name :: names => progress.readShort (name :: names)
    | _ =>
        match progress.pending with
        | some (slot, none) => .ok { progress with pending := some (slot, some argument) }
        | _ => progress.readFormula argument

def readAll (progress : Progress) : List String → Except Halt Progress
  | [] => progress.resolve
  | argument :: arguments => do (← progress.readArgument argument).readAll arguments

end Progress

def Arguments.ofList (arguments : List String) : Except Halt Arguments :=
  (Progress.readAll {} arguments).map Progress.settled

end CommandLine

end Propositional
