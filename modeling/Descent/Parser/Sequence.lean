/-
  Descent/Parser/Sequence.lean
  ============================
  **Parsers one after another, and parsers one instead of another.**

  `sequence` threads the state through its parts and collects their results; the
  first part that fails ends it, and the failed state of that part is the failed
  state of the whole.

  `choice` tries its alternatives on one and the same state.  The first success
  counts.  When there is none, what the alternatives reported is dropped and the
  choice fails where it started.
-/
import Descent.Parser.Basic

namespace Descent.Parser

/-- Applies the parsers in order from the state `s`.  `results` holds the results
    so far, the latest first. -/
def sequenceFrom : List Parser → List Value → Parser
  | [], results, s => pure (s.withResult (.list results.reverse))
  | p :: ps, results, s => do
    let t ← p s
    if t.isError then pure t else sequenceFrom ps (t.result :: results) t

/-- Applies the parsers in order and yields the list of their results. -/
def sequence (ps : List Parser) : Parser := fun s =>
  if s.isError then pure s else sequenceFrom ps [] s

/-- Tries the parsers in order, each on the state `s`. -/
def choiceFrom : List Parser → Parser
  | [], s =>
    pure (s.fail .alternativesExhausted
      ("choice: Unable to match with any parser at index " ++ toString s.cursor))
  | p :: ps, s => do
    let t ← p s
    if t.isError then choiceFrom ps s else pure t

/-- The first success among the parsers, all tried on the starting state. -/
def choice (ps : List Parser) : Parser := fun s =>
  if s.isError then pure s else choiceFrom ps s

end Descent.Parser
