/-
  Descent/State.lean
  ==================
  **A snapshot of a parse in progress.**

  A parser takes a state to a state.  A state holds the whole input, the cursor,
  the result of the parser that ran last, and whether and how that parser failed.
  The cursor may stand past the end of the input.

  `isError` and `error` are two fields, not one.  Every parser of the library sets
  them together, but a state handed in from outside, or made by a user-written
  parser, may have either without the other: combinators decide by `isError`,
  error handlers by `error`.
-/
import Descent.Value
import Descent.Text
import Descent.Failure

namespace Descent

/-- A snapshot of a parse.  The `result` means something only while `isError` is
    false. -/
structure State where
  input : Text
  cursor : Nat := 0
  result : Value := .null
  isError : Bool := false
  error : Option ParseError := none
deriving Inhabited

namespace State

/-- The state before the first character of a text. -/
def initial (input : Text) : State := { input }

def atEnd (s : State) : Bool := s.input.size ≤ s.cursor

/-- Moves the cursor and sets the result. -/
def advance (s : State) (cursor : Nat) (result : Value) : State := { s with cursor, result }

/-- Sets the result and leaves the cursor where it is. -/
def withResult (s : State) (result : Value) : State := { s with result }

/-- Marks the state as failed, for the given reason if there is one. -/
def withError (s : State) (error : Option ParseError) : State :=
  { s with isError := true, error }

def fail (s : State) (kind : ErrorKind) (message : String) : State :=
  s.withError (some { kind, message, position := s.cursor })

/-- The characters from the cursor on, `count` of them at most. -/
def upcoming (s : State) (count : Nat) : String := s.input.slice s.cursor (s.cursor + count)

/-- Whether two states agree in all five fields; results are compared as values,
    so numerically. -/
def same (s t : State) : Bool :=
  s.input == t.input && s.cursor == t.cursor && s.result.same t.result
    && s.isError == t.isError && s.error == t.error

end State

end Descent
