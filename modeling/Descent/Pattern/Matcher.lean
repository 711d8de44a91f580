/-
  Descent/Pattern/Matcher.lean
  ============================
  **Matching by backtracking: the first match in priority order.**

  `Node.search` matches a node from a given index and hands every place where that
  match can end to a continuation, in the order of priority, until the continuation
  accepts one.  So the match that is found is not the longest but the first, and a
  choice made early is taken back when what follows it fails.

  Matching sees the whole text, also what stands before the index it starts from.

  A loop first makes its mandatory rounds.  Each further round must start at
  another place than the round before it, the mandatory ones left aside; this is
  what ends a loop whose body reads nothing.  As the body never moves back, there
  are at most as many further rounds as there are places from the current one to
  the end of the text, so a bound on their number takes nothing away.

  An assertion is settled once: the first match of its body counts, and what
  follows the assertion cannot ask for another.
-/
import Descent.Pattern.Basic

namespace Descent

namespace Pattern

/-- What the groups captured: for a group, the places where its text starts and
    ends.  The latest entry of a group counts. -/
abbrev Captures := List (Nat × Nat × Nat)

/-- A match of a whole pattern: where it ends, and the captures. -/
abbrev Match := Nat × Captures

/-- What is still to be matched, from a place and with the captures so far. -/
abbrev Continuation := Nat → Captures → Option Match

/-! ### Places and single characters -/

def wordAt (t : Text) (i : Nat) : Bool :=
  match t.get? i with
  | some c => CharSet.word.contains c
  | none => false

def wordBefore (t : Text) : Nat → Bool
  | 0 => false
  | i + 1 => wordAt t i

def Anchor.holds (t : Text) (i : Nat) : Anchor → Bool
  | .textStart => i == 0
  | .lineStart => i == 0 || t.get? (i - 1) == some '\n'
  | .textEnd => i == t.size
  | .lastLineEnd => i == t.size || (i + 1 == t.size && t.get? i == some '\n')
  | .lineEnd => i == t.size || t.get? i == some '\n'
  | .wordEdge negated => t.size != 0 && (wordBefore t i != wordAt t i) != negated

/-- Whether two characters are the same, up to case if case is ignored. -/
def sameChar (ignoreCase : Bool) (c d : Char) : Bool :=
  c == d || (ignoreCase && c == swapCase d)

/-- Whether the `count` characters from `i` on repeat those from `j` on. -/
def repeats (t : Text) (ignoreCase : Bool) : Nat → Nat → Nat → Bool
  | 0, _, _ => true
  | count + 1, i, j =>
    match t.get? i, t.get? j with
    | some c, some d => sameChar ignoreCase c d && repeats t ignoreCase count (i + 1) (j + 1)
    | _, _ => false

/-! ### Loops -/

def rounds (body : Continuation → Continuation) (next : Continuation) : Nat → Continuation
  | 0 => next
  | n + 1 => body (rounds body next n)

/-- Makes further rounds, as many as the bound allows at most.  `last` is the place
    where the previous further round started. -/
def furtherRounds (greedy : Bool) (body : Continuation → Continuation) (next : Continuation) :
    Nat → Option Nat → Continuation
  | 0, _, i, caps => next i caps
  | bound + 1, last, i, caps =>
    if last == some i then next i caps
    else if greedy then
      match body (furtherRounds greedy body next bound (some i)) i caps with
      | some m => some m
      | none => next i caps
    else
      match next i caps with
      | some m => some m
      | none => body (furtherRounds greedy body next bound (some i)) i caps

/-- How many further rounds a loop can make from place `i` on. -/
def furtherBound (t : Text) (min : Nat) (max : Option Nat) (i : Nat) : Nat :=
  match max with
  | none => t.size - i + 1
  | some m => Nat.min (m - min) (t.size - i + 1)

/-! ### Nodes -/

/-- Matches a node from a place, and then whatever `next` stands for. -/
def Node.search (t : Text) : Node → Continuation → Continuation
  | .empty, next, i, caps => next i caps
  | .one cls, next, i, caps =>
    match t.get? i with
    | some c => if cls.contains c then next (i + 1) caps else none
    | none => none
  | .anchor a, next, i, caps => if a.holds t i then next i caps else none
  | .seq first second, next, i, caps => first.search t (second.search t next) i caps
  | .alt first second, next, i, caps =>
    match first.search t next i caps with
    | some m => some m
    | none => second.search t next i caps
  | .group index body, next, i, caps =>
    body.search t (fun j caps' => next j ((index, i, j) :: caps')) i caps
  | .backref index ignoreCase, next, i, caps =>
    match caps.lookup index with
    | some (start, stop) =>
      if repeats t ignoreCase (stop - start) i start then next (i + (stop - start)) caps
      else none
    | none => none
  | .loop greedy min max body, next, i, caps =>
    rounds (body.search t)
      (fun j caps' =>
        furtherRounds greedy (body.search t) next (furtherBound t min max j) none j caps')
      min i caps
  | .look direction negated body, next, i, caps =>
    let start? : Option Nat :=
      match direction with
      | .ahead => some i
      | .behind width => if width ≤ i then some (i - width) else none
    match start?.bind (fun start => body.search t (fun j caps' => some (j, caps')) start caps) with
    | some (_, caps') => if negated then none else next i caps'
    | none => if negated then next i caps else none

end Pattern

/-- The place where the first match of a pattern from index `i` on ends. -/
def Pattern.matchAt (p : Pattern) (t : Text) (i : Nat) : Option Nat :=
  (p.root.search t (fun j caps => some (j, caps)) i []).map Prod.fst

end Descent
