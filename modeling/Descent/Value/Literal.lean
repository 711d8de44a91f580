/-
  Descent/Value/Literal.lean
  ==========================
  **The written form of a value.**

  Messages and log lines show values in one fixed notation: `None`, `True`,
  `False`, integers in decimal, strings quoted, lists between brackets, records
  between braces with quoted keys.  Items are separated by a comma and a blank,
  a key from its value by a colon and a blank.
-/
import Descent.Value
import Descent.Text.Quoted

namespace Descent.Value

mutual

/-- The written form of a value. -/
def literal : Value → String
  | .null => "None"
  | .bool true => "True"
  | .bool false => "False"
  | .int n => toString n
  | .str s => Text.quote s
  | .list items => "[" ++ ", ".intercalate (itemLiterals items) ++ "]"
  | .record fields => "\x7b" ++ ", ".intercalate (fieldLiterals fields) ++ "\x7d"

def itemLiterals : List Value → List String
  | [] => []
  | v :: rest => literal v :: itemLiterals rest

def fieldLiterals : List (String × Value) → List String
  | [] => []
  | (k, v) :: rest => (Text.quote k ++ ": " ++ literal v) :: fieldLiterals rest

end

end Descent.Value
