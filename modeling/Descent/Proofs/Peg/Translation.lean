/-
  Descent/Proofs/Peg/Translation.lean
  ===================================
  **The grammars that are parsing expressions, and which ones they are.**

  Literals, runs of one class, the end of the input, sequences, choices, loops and
  references to rules have a counterpart each.  A loop over separated values is a
  value, then any number of rounds of a separator and a value, and then perhaps one
  more separator: the one that the loop keeps when no value follows it.

  A label has no counterpart of its own.  On a state that carries no error it only
  rewords failures.  On a state that has not failed and carries an error all the
  same, it finds that error behind a success of its body and turns the success into
  a failure.  So what a label is translated to depends on whether the state carries
  an error, which does not change along a parse that succeeds.
-/
import Descent.Proofs.Meaning
import Descent.Proofs.Ensures
import Descent.Proofs.Peg.Basic

namespace Descent

namespace Grammar

/-! ### The translation -/

/-- The class that a pattern is a run of. -/
def runClass (pattern : Pattern) : Char → Bool :=
  match pattern.root with
  | .loop true 1 none (.one cls) => cls.contains
  | _ => fun _ => false

mutual

/-- The parsing expression of a grammar, applied to states that carry an error or to
    states that carry none.  Grammars without a counterpart are sent to `fail`. -/
def toPeg (carries : Bool) : Grammar → Peg
  | .literal text => .literal text.toList
  | .regex _ pattern => .plus (.one (runClass pattern))
  | .succeed _ => .empty
  | .fail _ => .fail
  | .endOfInput => .not .any
  | .sequence parts => .concat (toPegs carries parts)
  | .choice alternatives => .firstOf (toPegs carries alternatives)
  | .many item => .star (toPeg carries item)
  | .many1 item => .plus (toPeg carries item)
  | .sepBy separator value => .opt (.separated (toPeg carries separator) (toPeg carries value))
  | .sepBy1 separator value => .separated (toPeg carries separator) (toPeg carries value)
  | .map body _ => toPeg carries body
  | .errorMap body _ => if carries then .seq (toPeg carries body) .fail else toPeg carries body
  | .named body _ => toPeg carries body
  | .lazy _ body => toPeg carries body
  | .rule name => .nonterminal name
  | .custom _ _ | .trace _ | .traced _ _ | .chain _ _ _ => .fail

def toPegs (carries : Bool) : List Grammar → List Peg
  | [] => []
  | g :: gs => toPeg carries g :: toPegs carries gs

end

def pegTable (rules : Rules) (carries : Bool) (name : String) : Option Peg :=
  (rules.lookup name).map (toPeg carries)

/-! ### The fragment -/

/-- A success of the grammar moves the cursor forward. -/
def Advancing (rules : Rules) (g : Grammar) : Prop :=
  ∀ s : State, s.isError = false →
    (g.meaning rules s).Ensures fun t => t.isError = false → s.cursor < t.cursor

/-- The function raises nothing on a result that the grammar yields. -/
def Maps (rules : Rules) (g : Grammar) (f : Value → Response Value) : Prop :=
  ∀ s : State, s.isError = false →
    (g.meaning rules s).Ensures fun t => t.isError = false → ∃ v, (f t.result).outcome = .ok v

/-- The grammars that have a counterpart: user functions raise nothing, and what a
    loop repeats, or has between its values, moves the cursor forward. -/
inductive IsPeg (rules : Rules) : Grammar → Prop where
  | literal {text : String} (htext : text ≠ "") : IsPeg rules (.literal text)
  | run (name source : String) (items : List Pattern.ClassItem) :
      IsPeg rules (.regex name (Pattern.runOf source items))
  | succeed (value : Value) : IsPeg rules (.succeed value)
  | fail (message : String) : IsPeg rules (.fail message)
  | endOfInput : IsPeg rules .endOfInput
  | sequence {parts : List Grammar} (hparts : ∀ p ∈ parts, IsPeg rules p) :
      IsPeg rules (.sequence parts)
  | choice {alternatives : List Grammar} (hparts : ∀ p ∈ alternatives, IsPeg rules p) :
      IsPeg rules (.choice alternatives)
  | many {item : Grammar} (hitem : IsPeg rules item) (hadvances : Advancing rules item) :
      IsPeg rules (.many item)
  | many1 {item : Grammar} (hitem : IsPeg rules item) (hadvances : Advancing rules item) :
      IsPeg rules (.many1 item)
  | sepBy {separator value : Grammar} (hseparator : IsPeg rules separator)
      (hvalue : IsPeg rules value) (hadvances : Advancing rules separator) :
      IsPeg rules (.sepBy separator value)
  | sepBy1 {separator value : Grammar} (hseparator : IsPeg rules separator)
      (hvalue : IsPeg rules value) (hadvances : Advancing rules separator) :
      IsPeg rules (.sepBy1 separator value)
  | map {body : Grammar} {f : Value → Response Value} (hbody : IsPeg rules body)
      (hmaps : Maps rules body f) : IsPeg rules (.map body f)
  | errorMap {body : Grammar} {handler : ParseError → Nat → Response Revision}
      (hbody : IsPeg rules body) (htotal : ∀ e i, ∃ r, (handler e i).outcome = .ok r) :
      IsPeg rules (.errorMap body handler)
  | named {body : Grammar} (hbody : IsPeg rules body) (name : String) :
      IsPeg rules (.named body name)
  | lazy {touch : Response Unit} {body : Grammar} (htouch : touch.outcome = .ok ())
      (hbody : IsPeg rules body) : IsPeg rules (.lazy touch body)
  | rule (name : String) : IsPeg rules (.rule name)

namespace IsPeg

variable {rules : Rules}

theorem letters : IsPeg rules Grammar.letters := .run "letters" _ _

theorem digits : IsPeg rules Grammar.digits := .run "digits" _ _

theorem map_total {body : Grammar} {f : Value → Response Value} (hbody : IsPeg rules body)
    (htotal : ∀ v, ∃ w, (f v).outcome = .ok w) : IsPeg rules (.map body f) :=
  .map hbody fun _ _ _ t _ _ _ => htotal t.result

theorem label {body : Grammar} (hbody : IsPeg rules body) (expected : String) :
    IsPeg rules (body.label expected) :=
  .errorMap hbody fun _ _ => ⟨_, rfl⟩

theorem ref (name : String) : IsPeg rules (Grammar.ref name) := .lazy rfl (.rule name)

/-- What stands between two delimiters can always be picked. -/
theorem between {left right content : Grammar} (hleft : IsPeg rules left)
    (hright : IsPeg rules right) (hcontent : IsPeg rules content) :
    IsPeg rules (Grammar.between left right content) := by
  refine .named (.map (.sequence ?_) ?_) _
  · intro p hp
    simp only [List.mem_cons, List.not_mem_nil, or_false] at hp
    rcases hp with rfl | rfl | rfl
    · exact hleft
    · exact hcontent
    · exact hright
  · intro s hs
    rw [meaning_sequence]
    exact Parser.ensures_pick_middle _ _ _ s

end IsPeg

end Grammar

end Descent
