/-
  Descent/Failure.lean
  ====================
  **What a failed parse reports.**

  A failure has a kind, a message for the reader, and the index at which it was
  detected.  The kinds are the ways in which the library's own parsers fail; a
  failure that a grammar declares itself is of the kind `message`.

  The position is an integer and not an index: a handler may replace an error by
  one of its own, and what it writes there is its business.
-/
namespace Descent

/-- The ways in which a parser fails. -/
inductive ErrorKind where
  /-- The input ended where a character was needed. -/
  | endOfInput
  /-- The input does not continue with a fixed text. -/
  | literalMismatch
  /-- The input does not continue with a text of a required shape. -/
  | classMismatch
  /-- No alternative of a choice matched. -/
  | alternativesExhausted
  /-- A repetition that needs one occurrence found none. -/
  | repetitionEmpty
  /-- The grammar refused the input in words of its own. -/
  | message
deriving DecidableEq, Repr, Inhabited

def ErrorKind.name : ErrorKind → String
  | .endOfInput => "END_OF_INPUT"
  | .literalMismatch => "LITERAL_MISMATCH"
  | .classMismatch => "CLASS_MISMATCH"
  | .alternativesExhausted => "ALTERNATIVES_EXHAUSTED"
  | .repetitionEmpty => "REPETITION_EMPTY"
  | .message => "MESSAGE"

/-- A parse failure: what went wrong, and where it was detected. -/
structure ParseError where
  kind : ErrorKind
  message : String
  position : Int
deriving DecidableEq, Repr, Inhabited

/-- What an error handler answers: a new message for the same error, or an error
    of its own. -/
inductive Revision where
  | message (text : String)
  | error (replacement : ParseError)
deriving DecidableEq, Repr

namespace ParseError

def render (e : ParseError) : String :=
  "Parse error at index " ++ toString e.position ++ ": " ++ e.message

/-- Carries out what a handler answered.  A new message leaves kind and position
    as they were. -/
def revise (e : ParseError) : Revision → ParseError
  | .message text => { e with message := text }
  | .error replacement => replacement

end ParseError

/-- The error that a state holds, as one line of text; a state may fail without
    one. -/
def renderError : Option ParseError → String
  | none => "None"
  | some e => e.render

end Descent
