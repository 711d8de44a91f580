/-
  Descent/Grammar/Probe.lean
  ==========================
  **User-written steps that do what no parser of the library does.**

  A step written by a user may do anything with a state.  The probes are four such
  steps.  One is a plain parser of a single character.  The others move the cursor
  as they please, turn a failed state into a success, or fail and move on: a test
  of what the combinators make of it.
-/
import Descent.Grammar.Basic

namespace Descent

/-- A user-written step, by its description. -/
inductive Probe where
  | anyChar
  /-- Moves the cursor, within the text. -/
  | seek (distance : Int)
  /-- Succeeds, also on a failed state. -/
  | recover
  /-- Fails, and then moves the cursor. -/
  | failMove (distance : Int)

namespace Probe

def functionName : Probe → String
  | .anyChar => "any_char"
  | .seek _ => "seek"
  | .recover => "recover"
  | .failMove _ => "failmove"

def anyCharStep (s : State) : State :=
  match s.input.get? s.cursor with
  | some c => s.advance (s.cursor + 1) (.str (String.singleton c))
  | none => s.fail .classMismatch "any: nothing left"

/-- Moves the cursor by a distance, but not out of the text. -/
def seekStep (distance : Int) (s : State) : State :=
  s.advance (Nat.min (s.cursor + distance).toNat s.input.size) (.int distance)

/-- What a probe makes of a state.  Only one of them touches a failed state. -/
def step : Probe → State → State
  | .recover, s => { s with isError := false, error := none, result := .str "recovered" }
  | .anyChar, s => if s.isError then s else anyCharStep s
  | .seek distance, s => if s.isError then s else seekStep distance s
  | .failMove distance, s =>
    if s.isError then s
    else
      let failed := s.fail .message "failmove"
      { failed with cursor := (s.cursor + distance).toNat }

/-- A probe as a grammar, known under the name of its function. -/
def grammar (p : Probe) : Grammar := .custom p.functionName fun s => pure (p.step s)

/-- A probe whose function has no name: it goes by what it is. -/
def nameless (p : Probe) : Grammar := .custom "parser" fun s => pure (p.step s)

end Probe

end Descent
