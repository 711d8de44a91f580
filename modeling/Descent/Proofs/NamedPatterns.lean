/-
  Descent/Proofs/NamedPatterns.lean
  =================================
  **The patterns that the library names are what their sources compile to.**

  `letters` and `digits` are given as trees.  Each tree is what the reader makes of
  the source that goes with it, and the check for the empty text lets every run of a
  class pass (`compile_runOf`).
-/
import Descent.Proofs.Matching
import Mathlib

namespace Descent.Pattern

/-- A run needs one character at least. -/
theorem matchesEmpty_runOf (source : String) (items : List ClassItem) :
    (runOf source items).matchesEmpty = false := by
  have hnothing : (Text.ofString "").runLength (CharClass.contains { items }) 0 = 0 :=
    Nat.le_zero.mp (Text.runLength_le (Text.ofString "") _ 0)
  rw [matchesEmpty, matchAt_runOf, if_pos hnothing]
  rfl

theorem compile_runOf {source : String} {items : List ClassItem}
    (h : read? source {} = some (runOf source items)) (name : String) :
    compile source name {} = .ok (runOf source items) := by
  simp only [compile, h, matchesEmpty_runOf, Bool.false_eq_true, if_false]

theorem read?_letters : read? letters.source {} = some letters := by cbv

theorem read?_digits : read? digits.source {} = some digits := by cbv

theorem compile_letters (name : String) : compile letters.source name {} = .ok letters :=
  compile_runOf read?_letters name

theorem compile_digits (name : String) : compile digits.source name {} = .ok digits :=
  compile_runOf read?_digits name

end Descent.Pattern
