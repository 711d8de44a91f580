/-
  Descent/Text.lean
  =================
  **The text that is parsed, indexed by character.**

  Cursors, error positions and lengths count characters.  `Text` stores them in an
  array, so that looking at one index takes constant time, and its meaning is the
  list `toList` of its characters.

  Every operation is total.  An index past the end finds nothing, a slice is cut
  down to what the text has, and a literal that would reach past the end is not
  there.
-/
namespace Descent

/-- A text: its characters in order. -/
structure Text where
  chars : Array Char
deriving DecidableEq, Repr, Inhabited

namespace Text

def ofString (s : String) : Text := ⟨s.toList.toArray⟩

/-- The characters of a text, in order: the view through which it is reasoned
    about. -/
def toList (t : Text) : List Char := t.chars.toList

def toString (t : Text) : String := String.ofList t.toList

def size (t : Text) : Nat := t.chars.size

/-- The character at an index, if the text reaches so far. -/
def get? (t : Text) (i : Nat) : Option Char := t.chars[i]?

/-- The characters from index `i` up to index `j`, as far as the text has them. -/
def slice (t : Text) (i j : Nat) : String := String.ofList (t.chars.extract i j).toList

/-- Whether the characters `cs` stand in the text from index `i` on. -/
def hasAt (t : Text) : List Char → Nat → Bool
  | [], _ => true
  | c :: cs, i => t.get? i == some c && t.hasAt cs (i + 1)

/-! ### What the operations are on the list of characters -/

@[simp] theorem toList_ofString (s : String) : (ofString s).toList = s.toList := by
  simp [ofString, toList]

@[simp] theorem length_toList (t : Text) : t.toList.length = t.size := by
  simp [toList, size]

theorem get?_eq (t : Text) (i : Nat) : t.get? i = t.toList[i]? := by
  simp [get?, toList]

theorem lt_size_of_get? {t : Text} {i : Nat} {c : Char} (h : t.get? i = some c) : i < t.size := by
  rcases Nat.lt_or_ge i t.size with hlt | hge
  · exact hlt
  · rw [get?, Array.getElem?_eq_none hge] at h
    cases h

theorem toList_slice (t : Text) (i j : Nat) :
    (t.slice i j).toList = (t.toList.drop i).take (j - i) := by
  simp [slice, toList]

theorem hasAt_iff_isPrefixOf (t : Text) (cs : List Char) (i : Nat) :
    t.hasAt cs i = true ↔ cs <+: t.toList.drop i := by
  induction cs generalizing i with
  | nil => simp [hasAt]
  | cons c cs ih =>
    rw [hasAt, Bool.and_eq_true, ih, get?_eq]
    cases h : t.toList.drop i with
    | nil =>
      have : t.toList.length ≤ i := List.drop_eq_nil_iff.1 h
      simp [List.getElem?_eq_none this]
    | cons d ds =>
      have hi : i < t.toList.length := by
        rcases Nat.lt_or_ge i t.toList.length with hlt | hge
        · exact hlt
        · rw [List.drop_eq_nil_of_le hge] at h; simp at h
      rw [List.drop_eq_getElem_cons hi] at h
      obtain ⟨hd, hds⟩ := List.cons.inj h
      rw [List.getElem?_eq_getElem hi, hd, hds, List.cons_prefix_cons, beq_iff_eq,
        Option.some.injEq, @eq_comm _ d c]

end Text

end Descent
