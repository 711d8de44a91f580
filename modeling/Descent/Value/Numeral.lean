/-
  Descent/Value/Numeral.lean
  ==========================
  **The integer that a decimal numeral writes.**

  A numeral is a non-empty run of ASCII digits, with a minus sign in front or
  without.  Leading zeros are allowed.
-/
import Descent.Value

namespace Descent

namespace Numeral

/-- The number that a run of digits writes. -/
def ofDigits (digits : List Char) : Nat :=
  digits.foldl (fun n c => 10 * n + (c.toNat - '0'.toNat)) 0

/-- The number that a numeral without sign writes. -/
def natural? (cs : List Char) : Option Nat :=
  if cs.isEmpty || !cs.all Char.isDigit then none else some (ofDigits cs)

/-- The number that a numeral writes. -/
def integer? : List Char → Option Int
  | '-' :: cs => (natural? cs).map fun n => -Int.ofNat n
  | cs => (natural? cs).map Int.ofNat

end Numeral

/-- The integer that a string writes as a numeral. -/
def Value.numeral? (v : Value) : Option Int := v.string?.bind fun s => Numeral.integer? s.toList

end Descent
