/-
  Descent/Text/Quoted.lean
  ========================
  **How a text is quoted inside a message.**

  A quoted text stands between two delimiters.  The delimiter is the apostrophe,
  except for a text that holds an apostrophe and no quotation mark, which is put
  between quotation marks and so needs no escape for the apostrophe.

  Inside, a backslash and the delimiter are written with a backslash before them;
  newline, carriage return and tab have letters of their own; any other character
  that is not printable is written by its code point, with two, four or eight
  hexadecimal digits, whichever is the first that is enough.
-/
import Descent.Text.Printable

namespace Descent.Text

namespace Quoted

/-! ### Code points in hexadecimal -/

/-- The lower-case hexadecimal digit of a number below sixteen. -/
def hexDigit (n : Nat) : Char :=
  if n < 10 then Char.ofNat ('0'.toNat + n) else Char.ofNat ('a'.toNat + (n - 10))

/-- The lowest `width` hexadecimal digits of `n`, the highest first. -/
def hexDigits : Nat → Nat → List Char
  | 0, _ => []
  | width + 1, n => hexDigits width (n / 16) ++ [hexDigit (n % 16)]

/-- The escape that names a code point. -/
def codePoint (n : Nat) : List Char :=
  if n < 0x100 then '\\' :: 'x' :: hexDigits 2 n
  else if n < 0x10000 then '\\' :: 'u' :: hexDigits 4 n
  else '\\' :: 'U' :: hexDigits 8 n

/-! ### Quoting -/

def delimiter (cs : List Char) : Char :=
  if cs.contains '\'' && !cs.contains '"' then '"' else '\''

/-- How one character is written between two delimiters `q`. -/
def escape (q c : Char) : List Char :=
  if c = '\\' ∨ c = q then ['\\', c]
  else if c = '\n' then ['\\', 'n']
  else if c = '\r' then ['\\', 'r']
  else if c = '\t' then ['\\', 't']
  else if isPrintable c then [c]
  else codePoint c.toNat

/-- The quoted form of a list of characters, delimiters included. -/
def encode (cs : List Char) : List Char :=
  let q := delimiter cs
  q :: (cs.flatMap (escape q) ++ [q])

end Quoted

def quote (s : String) : String := String.ofList (Quoted.encode s.toList)

end Descent.Text
