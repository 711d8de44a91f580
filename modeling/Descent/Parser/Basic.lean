/-
  Descent/Parser/Basic.lean
  =========================
  **Parsers as functions on states, and what is done with one parser.**

  A parser takes a state to a state, as a run: it may keep the journal, raise a
  fault, or have no answer for want of fuel.  Failure is not an outcome of its own
  but a state with `isError` set.

  The operations here take one parser and act on what comes out of it.  None of
  them looks at the incoming state, so none has to guard against a failed one: the
  parser it wraps does.
-/
import Descent.Run

namespace Descent

/-- A parser: a step from one state to the next. -/
abbrev Parser : Type := State → Run State

namespace Parser

/-- Applies a function to the result of a success. -/
def map (p : Parser) (f : Value → Run Value) : Parser := fun s => do
  let t ← p s
  if t.isError then pure t
  else do
    let v ← f t.result
    pure (t.withResult v)

/-- Picks the next parser from the result of a success and goes on with it, from
    the state that the first one reached. -/
def chain (p : Parser) (next : Value → Run Parser) : Parser := fun s => do
  let t ← p s
  if t.isError then pure t
  else do
    let q ← next t.result
    q t

/-- Revises the error of a state that holds one.  The handler is given the error
    and the cursor at which the parser ended. -/
def errorMap (p : Parser) (handler : ParseError → Nat → Run Revision) : Parser := fun s => do
  let t ← p s
  match t.error with
  | none => pure t
  | some e => do
    let r ← handler e t.cursor
    pure (t.withError (some (e.revise r)))

/-- Looks a parser up each time it is applied. -/
def lazy (thunk : Run Parser) : Parser := fun s => do
  let p ← thunk
  p s

end Parser

end Descent
