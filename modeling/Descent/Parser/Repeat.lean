/-
  Descent/Parser/Repeat.lean
  ==========================
  **A parser applied until it fails.**

  `collect` applies a parser again and again, each time to the state that the last
  success left, and keeps the results.  The failing attempt is dropped, so the
  state it ends with is the last good one.  A success that does not move the cursor
  is kept but is the last: it would only repeat.

  `many` always succeeds; `many1` fails where it started unless there was one
  success at least.
-/
import Descent.Parser.Basic

namespace Descent.Parser

/-- What a loop gathered: the results in order, and the last good state. -/
structure Harvest where
  results : List Value
  state : State

/-- Applies `p` until it fails or succeeds on the spot, `fuel` times at most.
    `results` holds the results so far, the latest first. -/
def collect (p : Parser) : Nat → List Value → State → Run Harvest
  | 0, _, _ => Run.exhausted
  | fuel + 1, results, current => do
    let attempt ← p current
    if attempt.isError then
      pure { results := results.reverse, state := current }
    else if attempt.cursor = current.cursor then
      pure { results := (attempt.result :: results).reverse, state := attempt }
    else collect p fuel (attempt.result :: results) attempt

/-- Zero or more occurrences of `p`. -/
def many (fuel : Nat) (p : Parser) : Parser := fun s =>
  if s.isError then pure s
  else do
    let harvest ← collect p fuel [] s
    pure (harvest.state.withResult (.list harvest.results))

/-- One or more occurrences of `p`. -/
def many1 (fuel : Nat) (p : Parser) : Parser := fun s =>
  if s.isError then pure s
  else do
    let harvest ← collect p fuel [] s
    if harvest.results.isEmpty then
      pure (s.fail .repetitionEmpty
        ("many1: Unable to match any input using parser @ index " ++ toString s.cursor))
    else pure (harvest.state.withResult (.list harvest.results))

end Descent.Parser
