/-
  Descent/Demo/Dice.lean
  ======================
  **A grammar in which the first part decides what the second part is.**

  A text is a label, a colon and a payload.  Behind `string` comes a run of letters,
  behind `number` a run of digits, and behind `diceroll` two runs of digits with a
  `d` between them.  Any other label is refused.  What follows the payload is not
  looked at.
-/
import Descent.Grammar.Run

namespace Descent.Demo.Dice

/-- A payload together with its label. -/
def tagged (label : String) (payload : Value) : Value :=
  .object [("type", .str label), ("value", payload)]

/-- The payload of `string`. -/
def word : Grammar := .map .letters fun v => pure (tagged "string" v)

/-- The payload of `number`. -/
def number : Grammar := .map .digits fun v => do return tagged "number" (← Grammar.readInteger v)

/-- The payload of `diceroll`: the number of dice and the number of their sides. -/
def roll : Grammar :=
  .map (.sequence [.digits, .literal "d", .digits]) fun v => do
    let dice ← Grammar.readInteger (← Grammar.pick 0 v)
    let sides ← Grammar.readInteger (← Grammar.pick 2 v)
    return tagged "diceroll" (.list [dice, sides])

/-- The payload that a label asks for. -/
def payload : Value → Grammar
  | .str "string" => word
  | .str "number" => number
  | .str "diceroll" => roll
  | label => .fail ("unknown label " ++ label.literal)

/-- A label, a colon and the payload that the label asks for. -/
def document : Grammar :=
  .chain (.map (.sequence [.letters, .literal ":"]) (Grammar.pick 0)) pure payload

/-- Parses a text. -/
def run (fuel : Nat) (text : Text) : Run State := document.run [] fuel text

/-! ### The command line -/

/-- The texts that the command line shows. -/
def samples : List String := ["string:hello", "number:42", "diceroll:2d8", "colour:red"]

/-- The line that says what became of a sample. -/
def reportLine (sample : String) (s : State) : String :=
  sample ++ ": " ++ (if s.isError then renderError s.error else s.result.literal) ++ "\n"

/-- What the command line prints: a line for each of the given samples. -/
def transcript (fuel : Nat) : List String → Run String
  | [] => return ""
  | sample :: rest => do
    let s ← run fuel (Text.ofString sample)
    return reportLine sample s ++ (← transcript fuel rest)

end Descent.Demo.Dice
