/-
  Descent/Pattern/Reader.lean
  ===========================
  **Reading a regular expression from its source.**

  The reader goes through the source from left to right and keeps what it needs to
  know about the groups met so far: how many there are, what they are called, and
  how wide those are that are already closed.  A reference to a group that is not
  closed, a quantifier with nothing to repeat or behind another quantifier, bounds
  in the wrong order, an unknown escape and a body of varying width behind which an
  assertion would have to look are all malformed.

  A brace that does not open well-formed bounds stands for itself.  In a class, a
  closing bracket that comes first and a hyphen that comes last do.

  Flags are resolved here: they decide which node a part of the source becomes.
-/
import Descent.Pattern.Width

namespace Descent

namespace Pattern

/-- The switches under which a source is read. -/
structure Flags where
  /-- Letters match in either case. -/
  ignoreCase : Bool := false
  /-- The anchors `^` and `$` look at lines. -/
  multiline : Bool := false
  /-- A dot takes a newline as well. -/
  dotAll : Bool := false
deriving DecidableEq, Repr

/-! ### The state of the reader -/

/-- What is left of the source, and the groups met so far. -/
structure Reading where
  rest : List Char
  groups : Nat := 0
  names : List (String × Nat) := []
  closed : List (Nat × Width) := []

/-- A step of the reader, which fails on a malformed source. -/
abbrev Reader := StateT Reading Option

namespace Reader

/-- The next character, left where it is. -/
def peek? : Reader (Option Char) := do return (← get).rest.head?

/-- Takes the next character; there has to be one. -/
def take : Reader Char := do
  match (← get).rest with
  | [] => failure
  | c :: rest => do
    modify fun r => { r with rest }
    return c

/-- Takes the next character if it is the given one. -/
def accept (c : Char) : Reader Bool := do
  if (← peek?) = some c then do
    let _ ← take
    return true
  else return false

/-- Takes the next character, which has to be the given one. -/
def expect (c : Char) : Reader Unit := do
  if ← accept c then return () else failure

def takeDigits : Reader (List Char) := do
  let r ← get
  set { r with rest := r.rest.dropWhile Char.isDigit }
  return r.rest.takeWhile Char.isDigit

/-! ### Numbers and names -/

def decimal (digits : List Char) : Nat :=
  digits.foldl (fun n c => 10 * n + (c.toNat - '0'.toNat)) 0

def hexValue? (c : Char) : Option Nat :=
  if c.isDigit then some (c.toNat - '0'.toNat)
  else if 'a' ≤ c && c ≤ 'f' then some (c.toNat - 'a'.toNat + 10)
  else if 'A' ≤ c && c ≤ 'F' then some (c.toNat - 'A'.toNat + 10)
  else none

/-- Takes `count` hexadecimal digits, and gives the character whose code point they
    write behind the digits of `value`. -/
def takeCodePoint : Nat → Nat → Reader Char
  | 0, value => if value < 0x110000 then return Char.ofNat value else failure
  | count + 1, value => do
    match hexValue? (← take) with
    | some digit => takeCodePoint count (16 * value + digit)
    | none => failure

/-- Takes a name and the character that closes it. -/
def takeName (close : Char) : Reader String := do
  let r ← get
  let name := r.rest.takeWhile CharSet.word.contains
  set { r with rest := r.rest.dropWhile CharSet.word.contains }
  expect close
  match name with
  | [] => failure
  | c :: _ => if c.isDigit then failure else return String.ofList name

/-! ### Groups -/

def openGroup : Reader Nat := do
  let index := (← get).groups + 1
  modify fun r => { r with groups := index }
  return index

/-- Calls a group by a name that is not in use yet. -/
def nameGroup (name : String) (index : Nat) : Reader Unit := do
  if ((← get).names.lookup name).isSome then failure
  modify fun r => { r with names := (name, index) :: r.names }

def closeGroup (index : Nat) (body : Node) : Reader Node := do
  modify fun r => { r with closed := (index, body.width r.closed) :: r.closed }
  return .group index body

/-- A reference to a group, which has to be closed. -/
def reference (flags : Flags) (index : Nat) : Reader Node := do
  if ((← get).closed.lookup index).isSome then return .backref index flags.ignoreCase
  else failure

/-! ### Escapes and classes -/

/-- The character that an escape stands for, inside and outside a class alike.  An
    ASCII letter or digit that means nothing is malformed. -/
def escapedChar (c : Char) : Reader Char := do
  match c with
  | 'n' => return '\n'
  | 't' => return '\t'
  | 'r' => return '\r'
  | 'f' => return Char.ofNat 0x0c
  | 'v' => return Char.ofNat 0x0b
  | 'a' => return Char.ofNat 0x07
  | '0' => return Char.ofNat 0x00
  | 'x' => takeCodePoint 2 0
  | 'u' => takeCodePoint 4 0
  | 'U' => takeCodePoint 8 0
  | _ => if c.isAlphanum then failure else return c

/-- The named set that an escape stands for, with its complement in upper case. -/
def escapedSet? : Char → Option ClassItem
  | 'd' => some (.named .digit false)
  | 'D' => some (.named .digit true)
  | 'w' => some (.named .word false)
  | 'W' => some (.named .word true)
  | 's' => some (.named .space false)
  | 'S' => some (.named .space true)
  | _ => none

/-- One character or named set inside a class, of which the first character has
    been taken. -/
def classItem (c : Char) : Reader ClassItem := do
  if c ≠ '\\' then return .range c c
  else do
    let e ← take
    match escapedSet? e with
    | some item => return item
    | none =>
      if e = 'b' then return .range (Char.ofNat 0x08) (Char.ofNat 0x08)
      else do
        let d ← escapedChar e
        return .range d d

/-- The range between two single characters in ascending order. -/
def rangeBetween : ClassItem → ClassItem → Reader ClassItem
  | .range first _, .range last _ => if first ≤ last then return .range first last else failure
  | _, _ => failure

/-- The parts of a class up to its closing bracket.  A bracket that comes `first`
    does not close it. -/
def classItems : Nat → Bool → Reader (List ClassItem)
  | 0, _ => failure
  | fuel + 1, first => do
    let c ← take
    if c = ']' && !first then return []
    else do
      let item ← classItem c
      if ← accept '-' then do
        let d ← take
        if d = ']' then return [item, .range '-' '-']
        else do
          let range ← rangeBetween item (← classItem d)
          return range :: (← classItems fuel false)
      else return item :: (← classItems fuel false)

/-- A class, of which the opening bracket has been taken. -/
def charClass (flags : Flags) : Reader Node := do
  let negated ← accept '^'
  let items ← classItems ((← get).rest.length + 1) true
  return .one { items, negated, ignoreCase := flags.ignoreCase }

/-! ### Quantifiers -/

/-- The bounds that an opening brace begins, if it does begin some. -/
def bounds? : Reader (Option (Nat × Option Nat)) := do
  let start ← get
  expect '{'
  if (← peek?) = some '}' then do
    set start
    return none
  else do
    let low ← takeDigits
    let high ← if ← accept ',' then takeDigits else pure low
    if ← accept '}' then do
      let min := decimal low
      let max := if high.isEmpty then none else some (decimal high)
      if max.any (· < min) then failure
      return some (min, max)
    else do
      set start
      return none

/-- The bounds of the quantifier that comes next, if one does. -/
def quantifier? : Reader (Option (Nat × Option Nat)) := do
  match ← peek? with
  | some '*' => do
    let _ ← take
    return some (0, none)
  | some '+' => do
    let _ ← take
    return some (1, none)
  | some '?' => do
    let _ ← take
    return some (0, some 1)
  | some '{' => bounds?
  | _ => return none

/-- Puts the quantifier that comes next, if one does, around a node.  Only one may
    come, and none behind what cannot be repeated. -/
def quantified (node : Node) (repeatable : Bool) : Reader Node := do
  match ← quantifier? with
  | none => return node
  | some (min, max) => do
    if !repeatable then failure
    let lazily ← accept '?'
    if (← quantifier?).isSome then failure
    return .loop (!lazily) min max node

/-! ### The expression -/

/-- What stands between an opening parenthesis and the body of its group. -/
inductive Opening where
  | plain
  | capture (index : Nat)
  | look (ahead negated : Bool)
  | reference (node : Node)

/-- What kind of group a parenthesis opens; the parenthesis has been taken. -/
def opening (flags : Flags) : Reader Opening := do
  if !(← accept '?') then return .capture (← openGroup)
  match ← take with
  | ':' => return .plain
  | '=' => return .look true false
  | '!' => return .look true true
  | '<' =>
    match ← take with
    | '=' => return .look false false
    | '!' => return .look false true
    | _ => failure
  | 'P' =>
    match ← take with
    | '<' => do
      let name ← takeName '>'
      let index ← openGroup
      nameGroup name index
      return .capture index
    | '=' => do
      let name ← takeName ')'
      match (← get).names.lookup name with
      | some index => return .reference (← reference flags index)
      | none => failure
    | _ => failure
  | _ => failure

/-- What a group is, once its body has been read. -/
def closing : Opening → Node → Reader Node
  | .plain, body => return body
  | .capture index, body => closeGroup index body
  | .look true negated, body => return .look .ahead negated body
  | .look false negated, body => do
    match (body.width (← get).closed).fixed? with
    | some width => return .look (.behind width) negated body
    | none => failure
  | .reference node, _ => return node

/-- The second digit of a reference, if it has one. -/
def secondDigit : Reader (List Char) := do
  match ← peek? with
  | some d => if d.isDigit then return [← take] else return []
  | none => return []

/-- What an escape outside a class stands for, and whether it can be repeated; the
    backslash has been taken. -/
def escape (flags : Flags) : Reader (Node × Bool) := do
  let c ← take
  match c with
  | 'A' => return (.anchor .textStart, false)
  | 'Z' => return (.anchor .textEnd, false)
  | 'b' => return (.anchor (.wordEdge false), false)
  | 'B' => return (.anchor (.wordEdge true), false)
  | _ =>
    match escapedSet? c with
    | some item => return (.one { items := [item] }, true)
    | none =>
      if c.isDigit && c ≠ '0' then do
        let second ← secondDigit
        return (← reference flags (decimal (c :: second)), true)
      else do
        let d ← escapedChar c
        return (.one { items := [.range d d], ignoreCase := flags.ignoreCase }, true)

mutual

/-- Alternatives, up to a closing parenthesis or the end. -/
def alternatives (flags : Flags) : Nat → Reader Node
  | 0 => failure
  | fuel + 1 => do
    let first ← branch flags fuel
    if ← accept '|' then return .alt first (← alternatives flags fuel)
    else return first

/-- Nodes in a row, up to a bar, a closing parenthesis or the end. -/
def branch (flags : Flags) : Nat → Reader Node
  | 0 => failure
  | fuel + 1 => do
    match ← peek? with
    | none | some '|' | some ')' => return .empty
    | some _ => do
      let (atom, repeatable) ← atom flags fuel
      let node ← quantified atom repeatable
      match ← branch flags fuel with
      | .empty => return node
      | rest => return .seq node rest

/-- One node without its quantifier, and whether it can have one. -/
def atom (flags : Flags) : Nat → Reader (Node × Bool)
  | 0 => failure
  | fuel + 1 => do
    if (← quantifier?).isSome then failure
    match ← take with
    | '(' => do
      match ← opening flags with
      | .reference node => return (node, true)
      | kind => do
        let body ← alternatives flags fuel
        expect ')'
        return (← closing kind body, true)
    | '[' => return (← charClass flags, true)
    | '.' => do
      let excluded := if flags.dotAll then [] else [.range '\n' '\n']
      return (.one { items := excluded, negated := true }, true)
    | '^' => return (.anchor (if flags.multiline then .lineStart else .textStart), false)
    | '$' => return (.anchor (if flags.multiline then .lineEnd else .lastLineEnd), false)
    | '\\' => escape flags
    | c => return (.one { items := [.range c c], ignoreCase := flags.ignoreCase }, true)

end

/-- A whole source: alternatives and nothing behind them. -/
def whole (flags : Flags) : Reader Node := do
  let node ← alternatives flags (4 * (← get).rest.length + 4)
  if (← get).rest.isEmpty then return node else failure

end Reader

end Pattern

/-- Reads a pattern from its source; `none` if the source is malformed. -/
def Pattern.read? (source : String) (flags : Pattern.Flags) : Option Pattern :=
  ((Pattern.Reader.whole flags).run { rest := source.toList }).map fun result =>
    { source, root := result.1 }

end Descent
