/-
  Descent/Value.lean
  ==================
  **The values that parsers produce and user functions exchange.**

  A grammar says nothing about the types of its results: a repetition collects
  whatever its item yields, a mapped parser yields whatever its function returns.
  `Value` is the closed world of those results: null, truth values, integers,
  strings, lists, and records with string keys.

  Two facts about records fix the rest of this file.  A record is kept as an
  association list in ascending order of its keys, so two records with the same
  fields are the same list, and writing a record out needs no sorting.  A field
  written twice keeps the value written last.

  Equality of values is *numeric*: `false` and `true` count as `0` and `1`, at
  any depth.  `Value.same` is that comparison; plain `=` is finer.
-/
namespace Descent

/-- A dynamically typed result.  The fields of a `record` stand in ascending
    order of their keys, each key once; `Value.object` builds records so. -/
inductive Value where
  | null
  | bool (b : Bool)
  | int (n : Int)
  | str (s : String)
  | list (items : List Value)
  | record (fields : List (String × Value))
deriving Inhabited

namespace Value

/-! ### Records -/

/-- Writes the field `key` into an ascending list of fields; a field of that name
    that is already there is replaced. -/
def insertField (key : String) (value : Value) :
    List (String × Value) → List (String × Value)
  | [] => [(key, value)]
  | (k, v) :: rest =>
    if key < k then (key, value) :: (k, v) :: rest
    else if key = k then (key, value) :: rest
    else (k, v) :: insertField key value rest

/-- The record that has the given fields; of two fields with one name the later
    one counts. -/
def object (fields : List (String × Value)) : Value :=
  .record (fields.foldl (fun acc field => insertField field.1 field.2 acc) [])

/-! ### Views -/

/-- The number a value stands for: integers stand for themselves, truth values
    for `0` and `1`, and nothing else is a number. -/
def number? : Value → Option Int
  | .int n => some n
  | .bool true => some 1
  | .bool false => some 0
  | _ => none

def string? : Value → Option String
  | .str s => some s
  | _ => none

/-! ### Comparison -/

mutual

/-- Whether two values are equal when truth values count as `0` and `1`. -/
def same : Value → Value → Bool
  | .null, .null => true
  | .str s, .str t => s == t
  | .list xs, .list ys => sameItems xs ys
  | .record fs, .record gs => sameFields fs gs
  | v, w =>
    match v.number?, w.number? with
    | some m, some n => m == n
    | _, _ => false

/-- Whether two lists have the same length and equal items at each place. -/
def sameItems : List Value → List Value → Bool
  | [], [] => true
  | x :: xs, y :: ys => same x y && sameItems xs ys
  | _, _ => false

/-- Whether two ascending lists of fields have the same keys and equal values. -/
def sameFields : List (String × Value) → List (String × Value) → Bool
  | [], [] => true
  | (k, v) :: fs, (l, w) :: gs => k == l && same v w && sameFields fs gs
  | _, _ => false

end

end Value

end Descent
