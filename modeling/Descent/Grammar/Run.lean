/-
  Descent/Grammar/Run.lean
  ========================
  **Parsing a text from its beginning.**

  `run` gives the terminal state, whatever it is.  `parse` insists on a result and
  raises a fault where there is none.  `attempt` gives a result or an error.

  The two do not ask the same field: `parse` looks whether an error is there,
  `attempt` whether the state is failed.
-/
import Descent.Grammar.Meaning

namespace Descent.Grammar

/-- Parses a text from its first character, and logs how that begins and ends. -/
def run (rules : Rules) (fuel : Nat) (g : Grammar) (text : Text) : Run State := do
  Run.debugLine (g.name ++ " start: " ++ toString text.size ++ " characters of input")
  let s ← g.parser rules fuel (State.initial text)
  Run.debugLine (closingLine s)
  pure s
where
  /-- The log line that says how a run ended. -/
  closingLine (s : State) : String :=
    if s.isError then g.name ++ " failed: " ++ renderError s.error
    else g.name ++ " matched " ++ s.result.literal ++ ", cursor = " ++ toString s.cursor

/-- The result of parsing a text.  A parse that ends with an error is a fault. -/
def parse (rules : Rules) (fuel : Nat) (g : Grammar) (text : Text) : Run Value := do
  let s ← g.run rules fuel text
  match s.error with
  | some e => Run.raise (.parseFailure s e)
  | none => pure s.result

/-- The result of a successful parse without an error, or no result and the error
    of a failed one. -/
def attempt (rules : Rules) (fuel : Nat) (g : Grammar) (text : Text) :
    Run (Value × Option ParseError) := do
  let s ← g.run rules fuel text
  if s.isError then pure (.null, s.error) else pure (s.result, none)

end Descent.Grammar
