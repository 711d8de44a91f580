/-
  Descent/Outline/Transform.lean
  ==============================
  **A vocabulary of functions from value to value.**

  `Transform` names the functions that an outline can send a result through.  They
  build values, take them apart and compute with them; they can also record their
  call, raise a fault and throw the debug switch.  A function that is given a value
  of the wrong kind raises a fault that names the function.
-/
import Descent.Journal
import Descent.Value.Numeral

namespace Descent

/-- A function from value to value, by its description. -/
inductive Transform where
  | identity
  | constant (value : Value)
  /-- The list with the value as its only item. -/
  | wrap
  /-- The record that holds the value and a type name. -/
  | tag (type : String)
  /-- The integer that a string writes. -/
  | integer
  /-- The number of characters, items or fields. -/
  | length
  | item (index : Nat)
  | join
  | add (n : Int)
  | multiply (n : Int)
  /-- A list of a first number and further pairs of operator and number, worked off
      from left to right. -/
  | calculate
  | record
  /-- The value itself; the call is recorded. -/
  | spy (label : String)
  | raise (message : String)
  /-- The value itself; the debug switch is thrown. -/
  | setDebug (on : Bool)
  /-- Several functions, the first of them first. -/
  | compose (parts : List Transform)

namespace Transform

/-- The fault of a function that cannot use a value. -/
def badValue (head : String) : Fault := .user (head ++ ": bad value")

/-- Answers with a value if there is one, and otherwise raises the fault of the
    function that cannot use what it was given. -/
def orBadValue (head : String) : Option Value → Response Value
  | some v => pure v
  | none => Response.raise (badValue head)

/-- The number of characters, items or fields of a value. -/
def lengthOf? : Value → Option Value
  | .str s => some (.int s.length)
  | .list items => some (.int items.length)
  | .record fields => some (.int fields.length)
  | _ => none

def itemOf? (index : Nat) : Value → Option Value
  | .list items => items[index]?
  | _ => none

def joined? : Value → Option Value
  | .list items => (items.mapM Value.string?).map fun parts => .str (String.join parts)
  | _ => none

/-- An integer, sent through a function; a truth value is no integer here. -/
def onInteger? (f : Int → Int) : Value → Option Value
  | .int n => some (.int (f n))
  | _ => none

/-- One step of a calculation: the operators are `+` and `-`, and any other one
    multiplies. -/
def calculateStep? (total : Int) : Value → Option Int
  | .list [.str operator, operand] => do
    let n ← operand.number?
    if operator = "+" then return total + n
    else if operator = "-" then return total - n
    else return total * n
  | _ => none

def calculated? : Value → Option Value
  | .list [first, .list []] => some first
  | .list [first, .list steps] => do
    return .int (← steps.foldlM calculateStep? (← first.number?))
  | _ => none

def field? : Value → Option (String × Value)
  | .list [.str key, value] => some (key, value)
  | _ => none

def record? : Value → Option Value
  | .list items => (items.mapM field?).map Value.object
  | _ => none

mutual

def apply : Transform → Value → Response Value
  | .identity, v => pure v
  | .constant value, _ => pure value
  | .wrap, v => pure (.list [v])
  | .tag type, v => pure (.object [("type", .str type), ("value", v)])
  | .integer, v => orBadValue "int" (v.numeral?.map Value.int)
  | .length, v => orBadValue "len" (lengthOf? v)
  | .item index, v => orBadValue "nth" (itemOf? index v)
  | .join, v => orBadValue "join" (joined? v)
  | .add n, v => orBadValue "add" (onInteger? (· + n) v)
  | .multiply n, v => orBadValue "mul" (onInteger? (· * n) v)
  | .calculate, v => orBadValue "calc" (calculated? v)
  | .record, v => orBadValue "object" (record? v)
  | .spy label, v => do
    Response.call label v
    pure v
  | .raise message, _ => Response.raise (.user message)
  | .setDebug on, v => do
    Response.effect (.setDebug on)
    pure v
  | .compose parts, v => applyAll parts v

def applyAll : List Transform → Value → Response Value
  | [], v => pure v
  | f :: rest, v => do
    let w ← apply f v
    applyAll rest w

end

end Transform

end Descent
