/-
  Descent/Fault.lean
  ==================
  **Faults: what stops a run, as opposed to what fails a parse.**

  A failed parse is a state, and combinators recover from it.  A fault goes
  straight through every combinator and ends the run: a user function raised it,
  a grammar is not well formed, or a caller insisted on a result that the parse
  does not have.  The causes are the constructors; `Fault.message` words them.
-/
import Descent.State
import Descent.Value.Literal

namespace Descent

/-- The loops that repeat a parser until it fails. -/
inductive Repetition where
  | many
  | many1
deriving DecidableEq, Repr

def Repetition.name : Repetition → String
  | .many => "many"
  | .many1 => "many1"

/-- The causes of a fault. -/
inductive Fault where
  /-- A user function raised it, in words of its own. -/
  | user (message : String)
  /-- The result of a parse that ended in an error was asked for. -/
  | parseFailure (state : State) (error : ParseError)
  /-- A plain value was to be repeated. -/
  | notRepeatable (loop : Repetition) (value : Value)
  /-- A plain value was to be deferred as if it were a function. -/
  | notDeferrable (value : Value)
  /-- The parser of this name was to be deferred as if it were a function. -/
  | parserNotDeferrable (name : String)
  /-- A deferred definition turned out to be a plain value. -/
  | deferredValue (value : Value)
  /-- A plain value stands where a parser is needed. -/
  | notParser (value : Value)
  /-- A value holds too few results. -/
  | missingResult (index : Nat) (value : Value)
  | notNumeral (value : Value)
  /-- A pattern, under its display name, matches the empty text. -/
  | matchesEmpty (name source : String)
  | malformedPattern (source : String)
  | unknownRule (name : String)
  | unknownSlot (name : String)
deriving Inhabited

/-- How a parser of the given name is shown inside a message. -/
def parserLiteral (name : String) : String := "<Parser " ++ name ++ ">"

def Fault.message : Fault → String
  | .user message => message
  | .parseFailure _ error => error.render
  | .notRepeatable loop value =>
    loop.name ++ "() expects a Parser, got " ++ value.literal
  | .notDeferrable value =>
    "lazy() expects a callable returning a Parser, got " ++ value.literal
  | .parserNotDeferrable name =>
    "lazy() expects a callable returning a Parser, got " ++ parserLiteral name
  | .deferredValue value =>
    "lazy thunk returned " ++ value.literal ++ ", not a Parser"
  | .notParser value => value.literal ++ " is not a Parser"
  | .missingResult index value =>
    "no result with index " ++ toString index ++ " in " ++ value.literal
  | .notNumeral value => value.literal ++ " is not a numeral"
  | .matchesEmpty name source =>
    name ++ ": pattern " ++ Text.quote source ++ " matches the empty string"
  | .malformedPattern source => "malformed pattern " ++ Text.quote source
  | .unknownRule name => "unknown rule " ++ Text.quote name
  | .unknownSlot name => "unknown slot " ++ Text.quote name

end Descent
