/-
  Descent/Outline/Basic.lean
  ==========================
  **Outlines: descriptions of grammars without functions in them.**

  An outline says how a grammar is to be put together.  It is plain data: functions
  are named from a vocabulary, and grammars that exist already are referred to by
  the name of their rule.  Putting it together may fail, which an outline can ask
  for on purpose: it may place a plain value where a parser is needed.

  There are two ways to refer to a rule.  An outline outside of any deferred part
  means the grammar that the table holds while the outline is put together.  Inside
  a deferred part it means whatever the table holds when the part is reached.
-/
import Descent.Outline.Transform
import Descent.Outline.Report
import Descent.Grammar.Probe
import Descent.Pattern.Reader

namespace Descent

mutual

/-- The description of a grammar. -/
inductive Outline where
  | literal (text : String)
  | letters
  | digits
  | succeed (value : Value)
  | fail (message : String)
  | endOfInput
  | regex (source name : String) (flags : Pattern.Flags)
  | many (item : Outline)
  | many1 (item : Outline)
  | sequence (parts : List Outline)
  | choice (alternatives : List Outline)
  | sepBy (separator value : Outline)
  | sepBy1 (separator value : Outline)
  | between (left right content : Outline)
  | trace (label : String)
  | traced (label : String) (body : Outline)
  | map (body : Outline) (f : Transform)
  | chain (body : Outline) (next : Continuation)
  | errorMap (body : Outline) (handler : Report)
  | label (body : Outline) (expected : String)
  | named (body : Outline) (name : String)
  | ref (name : String)
  | lazy (thunk : Thunk)
  /-- A user-written step, known under the name of its function. -/
  | probe (probe : Probe)
  /-- A user-written step whose function has no name. -/
  | namelessProbe (probe : Probe)
  /-- A plain value in the place of a parser. -/
  | value (value : Value)

/-- The description of what follows a result. -/
inductive Continuation where
  | constant (body : Outline)
  /-- What stands beside the result, if the result is one of the given strings. -/
  | table (entries : List (String × Outline)) (default : Outline)
  | succeed
  /-- The result, sent through a function. -/
  | succeedWith (f : Transform)
  | literal
  /-- As many in a row as the result says. -/
  | times (body : Outline)
  /-- A failure whose message ends in the result. -/
  | fail (opening : String)
  | raise (message : String)
  /-- Another continuation; the call is recorded. -/
  | spy (label : String) (next : Continuation)

/-- The description of a deferred definition. -/
inductive Thunk where
  /-- The rule of this name, looked up each time. -/
  | ref (name : String)
  /-- An outline, put together anew each time. -/
  | build (body : Outline)
  /-- A plain value where a parser is needed. -/
  | value (value : Value)
  /-- Another one; the call is recorded. -/
  | spy (label : String) (thunk : Thunk)
  /-- Not a function but a plain value. -/
  | notFunction (value : Value)
  /-- Not a function but a parser. -/
  | notFunctionButParser (body : Outline)

end

end Descent
