/-
  Descent/Parser/Primitive.lean
  =============================
  **Parsers that are made of no other parsers.**

  Each leaves a failed state as it is.  On any other state `succeed` and `fail`
  answer without looking at the input; `literal` and `endOfInput` look at the
  cursor and fail there, or succeed.

  `literal` asks first whether any input is left.  So the empty literal, which
  stands at every place inside a text, fails at its end.
-/
import Descent.Parser.Basic

namespace Descent.Parser

/-- How many characters of the input a message shows. -/
def preview : Nat := 10

/-- Succeeds with a value and reads nothing. -/
def succeed (value : Value) : Parser := fun s =>
  if s.isError then pure s else pure (s.withResult value)

def fail (message : String) : Parser := fun s =>
  if s.isError then pure s else pure (s.fail .message message)

/-- Reads the given text and yields it. -/
def literal (text : String) : Parser := fun s =>
  if s.isError then pure s
  else if s.atEnd then
    pure (s.fail .endOfInput
      ("str: Attempted to match " ++ Text.quote text ++ ", but received unexpected end of input"))
  else if s.input.hasAt text.toList s.cursor then
    pure (s.advance (s.cursor + text.length) (.str text))
  else
    pure (s.fail .literalMismatch
      ("str: Attempted to match " ++ Text.quote text ++ ", but received "
        ++ Text.quote (s.upcoming preview)))

/-- Succeeds, with no value to speak of, where nothing is left to read. -/
def endOfInput : Parser := fun s =>
  if s.isError then pure s
  else if s.atEnd then pure (s.withResult .null)
  else
    pure (s.fail .message
      ("eof: Expected end of input, but received " ++ Text.quote (s.upcoming preview)))

end Descent.Parser
