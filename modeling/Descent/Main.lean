/-
  Descent/Main.lean
  =================
  **The command line.**

  The first argument names one of the grammars that come with the library; what
  follows is handed on to it.
-/
import Descent.Session

namespace Descent.CommandLine

/-- The grammar that an argument names. -/
def script? : String → Option Session.Script
  | "diceroll" => some .dice
  | "nested_arrays" => some .nestedArray
  | _ => none

def usage : String := "usage: descent (diceroll | nested_arrays) [TEXT]"

end Descent.CommandLine

/-- Prints what the named grammar makes of its arguments. -/
def main (args : List String) : IO UInt32 := do
  match args.head?.bind Descent.CommandLine.script? with
  | none => do
    IO.eprintln Descent.CommandLine.usage
    return 2
  | some script =>
    match script.transcript Descent.Session.fuel args.tail {} with
    | .returned text _ => do
      IO.print text
      return 0
    | .raised fault _ => do
      IO.eprintln fault.message
      return 1
    | .exhausted => return 1
