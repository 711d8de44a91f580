/-
  Descent/Demo/NestedArray.lean
  =============================
  **A grammar that refers to itself: arrays of numbers and arrays.**

  A value is a run of digits or an array; an array is a list of values between
  square brackets, with commas between them and perhaps one more comma at the end.
  A document is one array and nothing else.
-/
import Descent.Grammar.Run

namespace Descent.Demo.NestedArray

/-- A number or an array.  The array is the rule of that name, so that it may hold
    values in turn. -/
def value : Grammar :=
  .lazy (pure ()) (.choice [.map .digits Grammar.readInteger, .rule "array"])

/-- Values between square brackets. -/
def array : Grammar :=
  Grammar.between (.literal "[") (.literal "]") (.sepBy (.literal ",") value)

/-- The table of rules. -/
def rules : Rules := [("array", array)]

/-- One array and nothing else. -/
def document : Grammar := .map (.sequence [array, .endOfInput]) (Grammar.pick 0)

/-- Parses a text. -/
def run (fuel : Nat) (text : Text) : Run State := document.run rules fuel text

/-! ### The command line -/

/-- The text that is parsed if none is given. -/
def sample : String := "[1,[2,[3],4],5]"

/-- The line that says what became of a text. -/
def reportLine (s : State) : String :=
  if s.isError then "Parsing Failed: " ++ renderError s.error ++ "\n"
  else "Successfully Parsed: " ++ s.result.literal ++ "\n"

/-- What the command line prints: what became of the first argument. -/
def transcript (fuel : Nat) (args : List String) : Run String := do
  return reportLine (← run fuel (Text.ofString (args.headD sample)))

end Descent.Demo.NestedArray
