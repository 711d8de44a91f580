/-
  Descent/Pattern/Basic.lean
  ==========================
  **Regular expressions with groups and assertions, as trees.**

  A pattern is a tree of nodes.  Flags leave no trace of their own: whether case is
  ignored stands in each class and each back-reference, whether a dot takes a
  newline in the class the dot became, whether `^` and `$` look at lines in the
  anchor that they became.

  `Pattern` keeps the source beside the tree, for messages.
-/
import Descent.Text

namespace Descent

namespace Pattern

/-! ### Character classes -/

/-- The named sets of characters.  All are sets of ASCII characters. -/
inductive CharSet where
  | digit
  | word
  | space
deriving DecidableEq, Repr

/-- Whether a character belongs to a named set: digits; letters, digits and the
    low line; blank, tab, newline, carriage return, form feed and vertical tab. -/
def CharSet.contains : CharSet → Char → Bool
  | .digit, c => c.isDigit
  | .word, c => c.isAlphanum || c == '_'
  | .space, c => c == ' ' || (0x09 ≤ c.toNat && c.toNat ≤ 0x0d)

/-- A part of a character class: a range with both ends, or a named set or its
    complement. -/
inductive ClassItem where
  | range (first last : Char)
  | named (set : CharSet) (negated : Bool)
deriving DecidableEq, Repr

def ClassItem.contains : ClassItem → Char → Bool
  | .range first last, c => first ≤ c && c ≤ last
  | .named set negated, c => set.contains c != negated

/-- The other case of an ASCII letter; any other character is its own. -/
def swapCase (c : Char) : Char := if c.isLower then c.toUpper else c.toLower

/-- A character class: the characters of some part, or those of none. -/
structure CharClass where
  items : List ClassItem
  negated : Bool := false
  ignoreCase : Bool := false
deriving DecidableEq, Repr

namespace CharClass

def hasItem (cls : CharClass) (c : Char) : Bool := cls.items.any (·.contains c)

/-- Whether a character belongs to the class.  If case is ignored, a letter is in
    some part as soon as one of its cases is. -/
def contains (cls : CharClass) (c : Char) : Bool :=
  (cls.hasItem c || (cls.ignoreCase && cls.hasItem (swapCase c))) != cls.negated

end CharClass

/-! ### Nodes -/

/-- The conditions on a place in a text that read nothing. -/
inductive Anchor where
  /-- Before the first character. -/
  | textStart
  /-- Before the first character, or behind a newline. -/
  | lineStart
  /-- Behind the last character. -/
  | textEnd
  /-- Behind the last character, or before a newline that is the last. -/
  | lastLineEnd
  /-- Behind the last character, or before a newline. -/
  | lineEnd
  /-- Between a word character and something else, or, if negated, not there.  An
      empty text has neither kind of place. -/
  | wordEdge (negated : Bool)
deriving DecidableEq, Repr

/-- In which direction an assertion looks.  Looking behind needs the number of
    characters that the body reads. -/
inductive Direction where
  | ahead
  | behind (width : Nat)
deriving DecidableEq, Repr

inductive Node where
  | empty
  | one (cls : CharClass)
  /-- Matches the empty text where a condition holds. -/
  | anchor (anchor : Anchor)
  | seq (first second : Node)
  /-- Matches the first, or if that leads nowhere the second. -/
  | alt (first second : Node)
  /-- Matches the body and captures what it read. -/
  | group (index : Nat) (body : Node)
  /-- Matches what a group captured last; fails while it has captured nothing. -/
  | backref (index : Nat) (ignoreCase : Bool)
  /-- Matches the body `min` times at least and `max` times at most, as often as
      possible if `greedy` and as seldom as possible otherwise. -/
  | loop (greedy : Bool) (min : Nat) (max : Option Nat) (body : Node)
  /-- Matches the empty text where the body matches, or, if negated, where it does
      not. -/
  | look (direction : Direction) (negated : Bool) (body : Node)
deriving Repr, Inhabited

end Pattern

/-- A regular expression and the text it was written as. -/
structure Pattern where
  source : String
  root : Pattern.Node
deriving Repr, Inhabited

end Descent
