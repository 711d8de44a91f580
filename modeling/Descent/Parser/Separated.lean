/-
  Descent/Parser/Separated.lean
  =============================
  **Values with a separator between them.**

  `collectSeparated` alternates a value and a separator.  It ends at a value that
  fails, at a separator that fails, and after a round that left the cursor where it
  was.  In the last two cases the state it ends with stands behind the value.  In
  the first it stands where the value was tried, which is behind the separator if
  there was one: a trailing separator stays consumed.

  `sepBy` always succeeds; `sepBy1` fails where it started unless there was one
  value at least.
-/
import Descent.Parser.Repeat

namespace Descent.Parser

/-- Applies `value` and `sep` in turn, for `fuel` rounds at most.  `results` holds
    the values so far, the latest first. -/
def collectSeparated (sep value : Parser) : Nat → List Value → State → Run Harvest
  | 0, _, _ => Run.exhausted
  | fuel + 1, results, current => do
    let found ← value current
    if found.isError then
      pure { results := results.reverse, state := current }
    else do
      let behind ← sep found
      if behind.isError || behind.cursor == current.cursor then
        pure { results := (found.result :: results).reverse, state := found }
      else collectSeparated sep value fuel (found.result :: results) behind

/-- Zero or more values with a separator between them. -/
def sepBy (fuel : Nat) (sep value : Parser) : Parser := fun s =>
  if s.isError then pure s
  else do
    let harvest ← collectSeparated sep value fuel [] s
    pure (harvest.state.withResult (.list harvest.results))

/-- One or more values with a separator between them. -/
def sepBy1 (fuel : Nat) (sep value : Parser) : Parser := fun s =>
  if s.isError then pure s
  else do
    let harvest ← collectSeparated sep value fuel [] s
    if harvest.results.isEmpty then
      pure (s.fail .repetitionEmpty
        ("sep_by1: Unable to capture any results at index " ++ toString s.cursor))
    else pure (harvest.state.withResult (.list harvest.results))

end Descent.Parser
