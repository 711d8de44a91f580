/-
  Descent/Grammar/Basic.lean
  ==========================
  **Grammars: parsers as trees.**

  A grammar says of which parts a parser is made.  It can be taken apart, which a
  parser, being a function, cannot: a name is read off the tree, references between
  rules are found in it, and what a grammar means (`Descent.Grammar.Meaning`) is
  defined by recursion on it.

  Where a grammar holds a function, the function is the user's.  It answers with a
  `Response`: it may record its call, throw the debug switch and raise a fault, but
  does not see what the library is doing.

  Recursion goes through rules.  A `rule` stands for whatever the table of rules
  holds under its name when it is applied, so a grammar may refer to itself and to
  rules that come later.
-/
import Descent.Parser.Regex
import Descent.Value.Numeral

namespace Descent

/-- The tree of a parser. -/
inductive Grammar where
  /-- A user-written step, known under the name of its function. -/
  | custom (functionName : String) (step : State → Response State)
  | literal (text : String)
  /-- What a pattern matches; the name is for messages. -/
  | regex (name : String) (pattern : Pattern)
  /-- Nothing, with a value. -/
  | succeed (value : Value)
  | fail (message : String)
  | endOfInput
  /-- One after the other. -/
  | sequence (parts : List Grammar)
  /-- One instead of another, the first that matches. -/
  | choice (alternatives : List Grammar)
  | many (item : Grammar)
  | many1 (item : Grammar)
  /-- Zero or more values with a separator between them. -/
  | sepBy (separator value : Grammar)
  /-- One or more values with a separator between them. -/
  | sepBy1 (separator value : Grammar)
  /-- A log line, and nothing else. -/
  | trace (label : String)
  /-- Another grammar, with log lines. -/
  | traced (label : String) (body : Grammar)
  /-- The result of another grammar, sent through a function. -/
  | map (body : Grammar) (f : Value → Response Value)
  /-- First `body`.  A user function then makes something of its result, and that
      decides what follows. -/
  | chain (body : Grammar) (prepare : Value → Response Value) (next : Value → Grammar)
  /-- The error of another grammar, sent through a handler that is also given the
      cursor. -/
  | errorMap (body : Grammar) (handler : ParseError → Nat → Response Revision)
  /-- Another grammar under a name of its own. -/
  | named (body : Grammar) (name : String)
  /-- Another grammar, looked up each time by a user function that may act or raise
      before the grammar is there. -/
  | lazy (touch : Response Unit) (body : Grammar)
  /-- Whatever the rule of this name stands for. -/
  | rule (name : String)

namespace Grammar

/-! ### Derived forms -/

def letters : Grammar := .regex "letters" Pattern.letters

def digits : Grammar := .regex "digits" Pattern.digits

/-- Puts what was expected in front of the message of an error. -/
def label (body : Grammar) (expected : String) : Grammar :=
  .errorMap body fun e _ => pure (.message ("expecting " ++ expected ++ ": " ++ e.message))

def orElse (first second : Grammar) : Grammar := .choice [first, second]

/-- A rule of the table, looked up each time. -/
def ref (name : String) : Grammar := .lazy (pure ()) (.rule name)

/-! ### Names -/

/-- The name of the function that a parser consists of.  Every parser of the
    library is a function of one and the same name. -/
def functionName : Grammar → String
  | .custom functionName _ => functionName
  | .named body _ => body.functionName
  | _ => "parse"

/-- A name, unless it is empty: then the name of the function counts. -/
def nameOr (name : String) (functionName : String) : String :=
  if name.isEmpty then functionName else name

/-- The name under which a grammar appears in the log, in messages and in the names
    of grammars made from it. -/
def name : Grammar → String
  | .custom functionName _ => functionName
  | .literal text => "string(" ++ Text.quote text ++ ")"
  | .regex name _ => nameOr name "parse"
  | .succeed value => "pure(" ++ value.literal ++ ")"
  | .fail _ => "fail"
  | .endOfInput => "eof"
  | .sequence _ => "sequence_of"
  | .choice _ => "choice"
  | .many item => "many(" ++ item.name ++ ")"
  | .many1 item => "many1(" ++ item.name ++ ")"
  | .sepBy _ value => "sep_by(" ++ value.name ++ ")"
  | .sepBy1 _ value => "sep_by1(" ++ value.name ++ ")"
  | .trace label => "trace(" ++ label ++ ")"
  | .traced label _ => "traced(" ++ label ++ ")"
  | .map body _ => body.name
  | .chain body _ _ => body.name
  | .errorMap body _ => body.name
  | .named body name => nameOr name body.functionName
  | .lazy _ _ => "lazy"
  | .rule name => name

/-- One of the results that a sequence collected. -/
def pick (index : Nat) (results : Value) : Response Value :=
  match results with
  | .list items =>
    match items[index]? with
    | some v => pure v
    | none => Response.raise (.missingResult index results)
  | _ => Response.raise (.missingResult index results)

/-- The integer that a result writes as a numeral. -/
def readInteger (result : Value) : Response Value :=
  match result.numeral? with
  | some n => pure (.int n)
  | none => Response.raise (.notNumeral result)

/-- What stands between two delimiters. -/
def between (left right content : Grammar) : Grammar :=
  .named (.map (.sequence [left, content, right]) (pick 1)) ("between(" ++ content.name ++ ")")

end Grammar

/-- A table of rules; the first entry of a name counts. -/
abbrev Rules := List (String × Grammar)

end Descent
