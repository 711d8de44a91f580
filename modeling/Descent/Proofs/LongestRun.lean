/-
  Descent/Proofs/LongestRun.lean
  ==============================
  **`letters` and `digits` are plain scans.**

  A run is told by its characters alone: at each of its places stands one that has the
  property.  How far one can count from a place is then the greatest number of which this
  holds (`Text.isGreatest_runLength`), be the run ended by another character or by the end
  of the text.

  The two parsers go through the matcher of patterns, which loops, tries and takes back.
  What comes of that is the longest run and nothing else
  (`Grammar.letters_and_digits_read_longest_run`).
-/
import Descent.Grammar.Meaning
import Descent.Proofs.NamedPatterns
import Mathlib.Order.Bounds.Basic

namespace Descent

namespace Text

variable {t : Text} {ok : Char → Bool} {i n : Nat}

/-- The `n` characters from index `i` on are there, and have the property. -/
def IsRun (t : Text) (ok : Char → Bool) (i n : Nat) : Prop :=
  ∀ k < n, ∃ c, t.get? (i + k) = some c ∧ ok c = true

theorem isRun_succ_iff :
    t.IsRun ok i (n + 1) ↔ (∃ c, t.get? i = some c ∧ ok c = true) ∧ t.IsRun ok (i + 1) n := by
  constructor
  · intro h
    refine ⟨h 0 (Nat.succ_pos n), fun k hk => ?_⟩
    rw [Nat.add_right_comm]
    exact h (k + 1) (Nat.succ_lt_succ hk)
  · rintro ⟨hfirst, hrest⟩ k hk
    cases k with
    | zero => exact hfirst
    | succ k =>
      have hkth := hrest k (Nat.lt_of_succ_lt_succ hk)
      rwa [Nat.add_right_comm] at hkth

/-- The runs from a place on are those that are not longer than the count. -/
theorem isRun_iff_le_runLength : t.IsRun ok i n ↔ n ≤ t.runLength ok i := by
  induction n generalizing i with
  | zero => exact ⟨fun _ => Nat.zero_le _, fun _ k hk => absurd hk (Nat.not_lt_zero k)⟩
  | succ n ih =>
    rw [isRun_succ_iff, ih]
    constructor
    · rintro ⟨⟨c, hget, hc⟩, hrest⟩
      rw [runLength_succ hget hc]
      exact Nat.succ_le_succ hrest
    · intro h
      have hsome : t.runLength ok i ≠ 0 := by omega
      obtain ⟨c, hget, hc⟩ := exists_of_runLength_ne_zero hsome
      rw [runLength_succ hget hc] at h
      exact ⟨⟨c, hget, hc⟩, Nat.le_of_succ_le_succ h⟩

/-- **The count is the length of the longest run.** -/
theorem isGreatest_runLength (t : Text) (ok : Char → Bool) (i : Nat) :
    IsGreatest {n | t.IsRun ok i n} (t.runLength ok i) :=
  ⟨isRun_iff_le_runLength.mpr (Nat.le_refl _), fun _ hn => isRun_iff_le_runLength.mp hn⟩

end Text

/-- Reads `n` characters at the cursor.  It fails where the input has ended, and where there
    is nothing to read. -/
def State.readRun (s : State) (name : String) (n : Nat) : State :=
  if s.input.size ≤ s.cursor then
    s.fail .endOfInput (name ++ ": Received unexpected end of input")
  else if n = 0 then
    s.fail .classMismatch
      (name ++ ": Unable to match " ++ name ++ " at index " ++ toString s.cursor)
  else
    s.advance (s.cursor + n) (.str (s.input.slice s.cursor (s.cursor + n)))

theorem Parser.regex_runOf_eq_readRun (name source : String) (items : List Pattern.ClassItem)
    {s : State} (hs : s.isError = false) :
    Parser.regex name (Pattern.runOf source items) s = pure (s.readRun name
      (s.input.runLength (Pattern.CharClass.contains { items }) s.cursor)) := by
  rw [Parser.regex_runOf name source items s hs, State.readRun, State.atEnd]
  by_cases hend : s.input.size ≤ s.cursor
  · rw [if_pos hend, if_pos (decide_eq_true hend)]
  · rw [if_neg hend, if_neg (by simpa using hend), apply_ite pure]
    rfl

namespace Grammar

/-- A pattern for a run of characters of one kind reads the longest one. -/
theorem runOf_reads_longest_run {items : List Pattern.ClassItem} {ok : Char → Bool}
    (hkind : ∀ c, Pattern.CharClass.contains { items } c = ok c) (name source : String)
    (rules : Rules) (fuel : Nat) {s : State} (hs : s.isError = false) (j : Journal) :
    ∃ n, IsGreatest {n | s.input.IsRun ok s.cursor n} n ∧
      (regex name (Pattern.runOf source items)).parser rules (fuel + 1) s j
        = .returned (s.readRun name n) j := by
  obtain rfl : Pattern.CharClass.contains { items } = ok := funext hkind
  refine ⟨_, Text.isGreatest_runLength s.input _ s.cursor, ?_⟩
  exact congrFun (Parser.regex_runOf_eq_readRun name source items hs) j

/-- **`letters` and `digits` read the longest run of ASCII letters and of ASCII digits.**
    The patterns are the ones that are written for them. -/
theorem letters_and_digits_read_longest_run (rules : Rules) (fuel : Nat) {s : State}
    (hs : s.isError = false) (j : Journal) :
    (Pattern.compile "[A-Za-z]+" "letters" {} = .ok Pattern.letters ∧
      ∃ n, IsGreatest {n | s.input.IsRun Char.isAlpha s.cursor n} n ∧
        letters.parser rules (fuel + 1) s j = .returned (s.readRun "letters" n) j) ∧
    (Pattern.compile "[0-9]+" "digits" {} = .ok Pattern.digits ∧
      ∃ n, IsGreatest {n | s.input.IsRun Char.isDigit s.cursor n} n ∧
        digits.parser rules (fuel + 1) s j = .returned (s.readRun "digits" n) j) :=
  ⟨⟨Pattern.compile_letters _,
      runOf_reads_longest_run Pattern.contains_letters _ _ rules fuel hs j⟩,
    Pattern.compile_digits _,
      runOf_reads_longest_run Pattern.contains_digits _ _ rules fuel hs j⟩

/-- A letter that is not an ASCII letter ends the run, also if letters follow, and there is
    no run of digits where a letter stands. -/
theorem run_ends_at_accent :
    IsGreatest {n | (Text.ofString "7abéc").IsRun Char.isAlpha 1 n} 2 ∧
      letters.parser [] 1 { input := Text.ofString "7abéc", cursor := 1 } {}
        = .returned { input := Text.ofString "7abéc", cursor := 3, result := .str "ab" } {} ∧
      digits.parser [] 1 { input := Text.ofString "7abéc", cursor := 1 } {}
        = .returned (({ input := Text.ofString "7abéc", cursor := 1 } : State).fail .classMismatch
            "digits: Unable to match digits at index 1") {} := by
  have hletters : IsGreatest {n | (Text.ofString "7abéc").IsRun Char.isAlpha 1 n} 2 :=
    Text.isGreatest_runLength _ _ _
  have hdigits : IsGreatest {n | (Text.ofString "7abéc").IsRun Char.isDigit 1 n} 0 :=
    Text.isGreatest_runLength _ _ _
  obtain ⟨⟨-, k, hk, hreadk⟩, -, m, hm, hreadm⟩ := letters_and_digits_read_longest_run [] 0
    (s := { input := Text.ofString "7abéc", cursor := 1 }) rfl {}
  obtain rfl : k = 2 := hk.unique hletters
  obtain rfl : m = 0 := hm.unique hdigits
  exact ⟨hletters, hreadk, hreadm⟩

end Grammar

end Descent
