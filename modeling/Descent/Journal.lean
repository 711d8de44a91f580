/-
  Descent/Journal.lean
  ====================
  **What a run leaves behind besides its result.**

  A journal collects the calls that user functions ask to have recorded, the lines
  of the debug log, and the current position of the debug switch.  It only grows:
  nothing that was recorded is taken back, also not by a fault.

  User functions act on a journal through a `Response` only.  A response lists the
  effects of one call and then gives a value or a fault.  So a user function can
  record a call, throw the debug switch and raise a fault, but it can neither read
  the journal nor write the log.
-/
import Descent.Fault

namespace Descent

/-- The calls recorded and the lines logged so far, and whether the library is
    logging. -/
structure Journal where
  debug : Bool := false
  log : Array String := #[]
  calls : Array (String × Value) := #[]
deriving Inhabited

/-- What a user function can do to the journal. -/
inductive Effect where
  /-- Records a call, under a label and with its argument. -/
  | call (label : String) (argument : Value)
  | setDebug (on : Bool)

namespace Journal

def perform (j : Journal) : Effect → Journal
  | .call label argument => { j with calls := j.calls.push (label, argument) }
  | .setDebug on => { j with debug := on }

def performAll (j : Journal) (effects : List Effect) : Journal := effects.foldl perform j

def write (j : Journal) (line : String) : Journal := { j with log := j.log.push line }

end Journal

/-! ### User functions -/

/-- The answer of a user function: its effects in order, and then a value or a
    fault. -/
structure Response (α : Type) where
  effects : List Effect := []
  outcome : Except Fault α

namespace Response

/-- Answers with a value and does nothing else. -/
protected def pure {α : Type} (a : α) : Response α := { outcome := .ok a }

def raise {α : Type} (fault : Fault) : Response α := { outcome := .error fault }

def effect (e : Effect) : Response Unit := { effects := [e], outcome := .ok () }

def call (label : String) (argument : Value) : Response Unit := effect (.call label argument)

/-- Answers with what `f` makes of the value; a fault ends the answer there. -/
protected def bind {α β : Type} (r : Response α) (f : α → Response β) : Response β :=
  match r.outcome with
  | .error fault => { effects := r.effects, outcome := .error fault }
  | .ok a =>
    let next := f a
    { effects := r.effects ++ next.effects, outcome := next.outcome }

instance : Monad Response where
  pure := Response.pure
  bind := Response.bind

end Response

end Descent
