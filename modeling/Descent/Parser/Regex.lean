/-
  Descent/Parser/Regex.lean
  =========================
  **A regular expression as a parser.**

  The pattern is matched at the cursor, not further on, and what it matched is the
  result.  An empty match is a failure.  A pattern that matches the empty text is
  not accepted to begin with; with assertions a pattern can still match the empty
  text at some places, and there the parser fails.

  `letters` and `digits` are the two patterns that the library names itself: runs
  of ASCII letters and of ASCII digits.
-/
import Descent.Parser.Basic
import Descent.Pattern.Matcher
import Descent.Pattern.Reader

namespace Descent

namespace Pattern

/-- Whether the pattern matches the empty text. -/
def matchesEmpty (p : Pattern) : Bool := (p.matchAt (Text.ofString "") 0).isSome

/-- The pattern that a source stands for, to be shown under a name.  It has to be
    well formed, and must not match the empty text. -/
def compile (source name : String) (flags : Flags) : Except Fault Pattern :=
  match read? source flags with
  | none => .error (.malformedPattern source)
  | some p => if p.matchesEmpty then .error (.matchesEmpty name source) else .ok p

/-- A run of characters of one class, as long as possible. -/
def runOf (source : String) (items : List ClassItem) : Pattern where
  source
  root := .loop true 1 none (.one { items })

def letters : Pattern := runOf "[A-Za-z]+" [.range 'A' 'Z', .range 'a' 'z']

def digits : Pattern := runOf "[0-9]+" [.range '0' '9']

end Pattern

/-- Reads what the pattern matches at the cursor, one character at least, and
    yields it. -/
def Parser.regex (name : String) (pattern : Pattern) : Parser := fun s =>
  if s.isError then pure s
  else if s.atEnd then
    pure (s.fail .endOfInput (name ++ ": Received unexpected end of input"))
  else
    match pattern.matchAt s.input s.cursor with
    | some stop =>
      if stop = s.cursor then pure (noMatch s)
      else pure (s.advance stop (.str (s.input.slice s.cursor stop)))
    | none => pure (noMatch s)
where
  /-- The failure where nothing, or the empty text, was matched. -/
  noMatch (s : State) : State :=
    s.fail .classMismatch
      (name ++ ": Unable to match " ++ name ++ " at index " ++ toString s.cursor)

end Descent
