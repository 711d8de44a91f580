/-
  Descent/Parser/Trace.lean
  =========================
  **Parsers that write to the debug log.**

  `trace` says what is about to be read and touches nothing, the previous result
  included.  `traced` says the same before it applies a parser, and says afterwards
  if that parser failed.  Both are silent unless the library is logging at that
  moment, and on a failed state.
-/
import Descent.Parser.Basic

namespace Descent.Parser

/-- How many of the upcoming characters a log line shows. -/
def logWindow : Nat := 30

/-- The log line that says what is about to be read. -/
def positionLine (label : String) (s : State) : String :=
  label ++ ": \"" ++ s.upcoming logWindow
    ++ (if s.cursor + logWindow < s.input.size then "..." else "")
    ++ "\" at index " ++ toString s.cursor

/-- Logs what is about to be read. -/
def trace (label : String) : Parser := fun s => do
  let debug ← Run.debugging
  if debug && !s.isError then Run.write (positionLine label s)
  pure s

/-- Applies `p`; logs what is about to be read, and the failure of `p`. -/
def traced (label : String) (p : Parser) : Parser := fun s =>
  if s.isError then pure s
  else do
    Run.debugLine (positionLine label s)
    let t ← p s
    if t.isError then Run.debugLine (label ++ " failed: " ++ renderError t.error)
    pure t

end Descent.Parser
