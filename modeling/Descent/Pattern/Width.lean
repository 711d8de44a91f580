/-
  Descent/Pattern/Width.lean
  ==========================
  **How many characters a node can read.**

  Looking behind starts a fixed number of characters before the current place, so
  the reader of patterns has to know that number.  `Node.width` gives the fewest
  and the most characters that a node reads; a node reads a fixed number when the
  two agree.
-/
import Descent.Pattern.Basic

namespace Descent.Pattern

/-- The fewest characters and the most, where `none` is no limit. -/
structure Width where
  least : Nat
  most : Option Nat
deriving DecidableEq, Repr

namespace Width

def exactly (n : Nat) : Width := { least := n, most := some n }

/-- The number of characters, if there is only one possibility. -/
def fixed? (w : Width) : Option Nat :=
  if w.most = some w.least then some w.least else none

def add (v w : Width) : Width where
  least := v.least + w.least
  most := do return (← v.most) + (← w.most)

def union (v w : Width) : Width where
  least := Nat.min v.least w.least
  most := do return Nat.max (← v.most) (← w.most)

def times (w : Width) (min : Nat) (max : Option Nat) : Width where
  least := w.least * min
  most := if w.most = some 0 then some 0 else do return (← w.most) * (← max)

end Width

/-- How many characters a node can read, given the widths of the groups that it
    refers back to. -/
def Node.width (groups : List (Nat × Width)) : Node → Width
  | .empty => .exactly 0
  | .one _ => .exactly 1
  | .anchor _ => .exactly 0
  | .seq first second => (first.width groups).add (second.width groups)
  | .alt first second => (first.width groups).union (second.width groups)
  | .group _ body => body.width groups
  | .backref index _ => (groups.lookup index).getD { least := 0, most := none }
  | .loop _ min max body => (body.width groups).times min max
  | .look _ _ _ => .exactly 0

end Descent.Pattern
