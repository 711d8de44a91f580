/-
  Descent/Grammar/Meaning.lean
  ============================
  **What a grammar means: the parser that its tree stands for.**

  Each kind of node is one of the parsers in `Descent.Parser`, applied to what the
  parts mean.  The recursion is on fuel.  One unit is spent on the way down to each
  part, so the fuel bounds how deep applications nest, and the same number bounds
  the rounds of each loop.  A grammar without answer, such as a rule that stands
  for itself, has none for any fuel; for any other, what enough fuel finds more
  fuel finds as well.
-/
import Descent.Grammar.Basic
import Descent.Parser.Primitive
import Descent.Parser.Sequence
import Descent.Parser.Separated
import Descent.Parser.Trace

namespace Descent.Grammar

/-- The parser that a grammar stands for under a table of rules. -/
def parser (rules : Rules) : Nat → Grammar → Parser
  | 0, _ => fun _ => Run.exhausted
  | fuel + 1, g =>
    match g with
    | .custom _ step => fun s => (step s).run
    | .literal text => Parser.literal text
    | .regex name pattern => Parser.regex name pattern
    | .succeed value => Parser.succeed value
    | .fail message => Parser.fail message
    | .endOfInput => Parser.endOfInput
    | .sequence parts => Parser.sequence (parts.map (parser rules fuel))
    | .choice alternatives => Parser.choice (alternatives.map (parser rules fuel))
    | .many item => Parser.many fuel (parser rules fuel item)
    | .many1 item => Parser.many1 fuel (parser rules fuel item)
    | .sepBy separator value =>
      Parser.sepBy fuel (parser rules fuel separator) (parser rules fuel value)
    | .sepBy1 separator value =>
      Parser.sepBy1 fuel (parser rules fuel separator) (parser rules fuel value)
    | .trace label => Parser.trace label
    | .traced label body => Parser.traced label (parser rules fuel body)
    | .map body f => Parser.map (parser rules fuel body) fun v => (f v).run
    | .chain body prepare next =>
      Parser.chain (parser rules fuel body) fun v => do
        let w ← (prepare v).run
        pure (parser rules fuel (next w))
    | .errorMap body handler =>
      Parser.errorMap (parser rules fuel body) fun e cursor => (handler e cursor).run
    | .named body _ => parser rules fuel body
    | .lazy touch body => Parser.lazy do
        touch.run
        pure (parser rules fuel body)
    | .rule name =>
      match rules.lookup name with
      | some body => parser rules fuel body
      | none => fun _ => Run.raise (.unknownRule name)

end Descent.Grammar
