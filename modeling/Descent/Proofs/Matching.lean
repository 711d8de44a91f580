/-
  Descent/Proofs/Matching.lean
  ============================
  **Where a match can end.**

  The matcher hands every place where a node can end to a continuation.  Such a
  place is never before the one where the node started and never behind the text
  (`Node.search_reaches`), whatever the captures are: a back-reference that would
  leave the text does not match.  So a match of a whole pattern lies within the text
  (`matchAt_bounds`).

  A greedy run of one class of characters ends behind the longest such run
  (`matchAt_runOf`): the continuation of a whole pattern accepts every place, so
  nothing that the loop took is ever given back.
-/
import Descent.Parser.Regex

namespace Descent

namespace Pattern

variable {t : Text}

/-! ### A node never moves back, nor out of the text -/

/-- Whatever a matching step answers, its continuation answered at a place that is
    not before the start and not behind the text. -/
def Reaches (t : Text) (step : Continuation → Continuation) : Prop :=
  ∀ (next : Continuation) (i : Nat) (caps : Captures) (m : Match),
    i ≤ t.size → step next i caps = some m →
      ∃ j caps', i ≤ j ∧ j ≤ t.size ∧ next j caps' = some m

theorem repeats_fits {ignoreCase : Bool} {count i j : Nat}
    (h : repeats t ignoreCase count i j = true) (hi : i ≤ t.size) : i + count ≤ t.size := by
  induction count generalizing i j with
  | zero => simpa using hi
  | succ count ih =>
    rw [repeats] at h
    split at h
    · rename_i c d hc _
      have hlt : i < t.size := Text.lt_size_of_get? hc
      simp only [Bool.and_eq_true] at h
      have := ih h.2 hlt
      omega
    · cases h

theorem rounds_reaches {body : Continuation → Continuation} (hbody : Reaches t body) (n : Nat) :
    Reaches t fun next => rounds body next n := by
  induction n with
  | zero => exact fun next i caps m hi h => ⟨i, caps, Nat.le_refl i, hi, h⟩
  | succ n ih =>
    intro next i caps m hi h
    obtain ⟨j, caps', hij, hj, hrest⟩ := hbody _ i caps m hi h
    obtain ⟨k, caps'', hjk, hk, hnext⟩ := ih next j caps' m hj hrest
    exact ⟨k, caps'', Nat.le_trans hij hjk, hk, hnext⟩

theorem furtherRounds_reaches {body : Continuation → Continuation} (hbody : Reaches t body)
    (greedy : Bool) (bound : Nat) (last : Option Nat) :
    Reaches t fun next => furtherRounds greedy body next bound last := by
  induction bound generalizing last with
  | zero => exact fun next i caps m hi h => ⟨i, caps, Nat.le_refl i, hi, h⟩
  | succ bound ih =>
    intro next i caps m hi h
    have hstop : next i caps = some m → ∃ j caps', i ≤ j ∧ j ≤ t.size ∧ next j caps' = some m :=
      fun h => ⟨i, caps, Nat.le_refl i, hi, h⟩
    have hround : body (furtherRounds greedy body next bound (some i)) i caps = some m →
        ∃ j caps', i ≤ j ∧ j ≤ t.size ∧ next j caps' = some m := by
      intro h
      obtain ⟨j, caps', hij, hj, hrest⟩ := hbody _ i caps m hi h
      obtain ⟨k, caps'', hjk, hk, hnext⟩ := ih (some i) next j caps' m hj hrest
      exact ⟨k, caps'', Nat.le_trans hij hjk, hk, hnext⟩
    simp only [furtherRounds] at h
    split at h
    · exact hstop h
    · split at h
      · split at h
        · rename_i m' hm
          cases h
          exact hround hm
        · exact hstop h
      · split at h
        · rename_i m' hm
          cases h
          exact hstop hm
        · exact hround h

/-- **A node ends where it started or behind that, and within the text.** -/
theorem Node.search_reaches (node : Node) : Reaches t (node.search t) := by
  induction node with
  | empty => exact fun next i caps m hi h => ⟨i, caps, Nat.le_refl i, hi, h⟩
  | one cls =>
    intro next i caps m hi h
    simp only [Node.search] at h
    split at h
    · rename_i c hc
      split at h
      · exact ⟨i + 1, caps, Nat.le_succ i, Text.lt_size_of_get? hc, h⟩
      · cases h
    · cases h
  | anchor a =>
    intro next i caps m hi h
    simp only [Node.search] at h
    split at h
    · exact ⟨i, caps, Nat.le_refl i, hi, h⟩
    · cases h
  | seq first second ihfirst ihsecond =>
    intro next i caps m hi h
    obtain ⟨j, caps', hij, hj, hrest⟩ := ihfirst _ i caps m hi h
    obtain ⟨k, caps'', hjk, hk, hnext⟩ := ihsecond next j caps' m hj hrest
    exact ⟨k, caps'', Nat.le_trans hij hjk, hk, hnext⟩
  | alt first second ihfirst ihsecond =>
    intro next i caps m hi h
    simp only [Node.search] at h
    split at h
    · rename_i m' hm
      cases h
      exact ihfirst next i caps m hi hm
    · exact ihsecond next i caps m hi h
  | group index body ih =>
    intro next i caps m hi h
    obtain ⟨j, caps', hij, hj, hnext⟩ := ih _ i caps m hi h
    exact ⟨j, _, hij, hj, hnext⟩
  | backref index ignoreCase =>
    intro next i caps m hi h
    simp only [Node.search] at h
    split at h
    · split at h
      · rename_i hrepeats
        exact ⟨_, caps, Nat.le_add_right i _, repeats_fits hrepeats hi, h⟩
      · cases h
    · cases h
  | loop greedy min max body ih =>
    intro next i caps m hi h
    obtain ⟨j, caps', hij, hj, hrest⟩ := rounds_reaches ih min _ i caps m hi h
    obtain ⟨k, caps'', hjk, hk, hnext⟩ := furtherRounds_reaches ih greedy _ none next j caps' m hj hrest
    exact ⟨k, caps'', Nat.le_trans hij hjk, hk, hnext⟩
  | look direction negated body ih =>
    intro next i caps m hi h
    simp only [Node.search] at h
    split at h
    · split at h
      · cases h
      · exact ⟨i, _, Nat.le_refl i, hi, h⟩
    · split at h
      · exact ⟨i, caps, Nat.le_refl i, hi, h⟩
      · cases h

end Pattern

theorem Pattern.matchAt_bounds {p : Pattern} {t : Text} {i stop : Nat} (hi : i ≤ t.size)
    (h : p.matchAt t i = some stop) : i ≤ stop ∧ stop ≤ t.size := by
  obtain ⟨m, hm, rfl⟩ := Option.map_eq_some_iff.mp h
  obtain ⟨j, caps, hij, hj, hend⟩ := p.root.search_reaches _ i [] m hi hm
  cases hend
  exact ⟨hij, hj⟩

/-! ### The longest run of a class -/

namespace Text

/-- How many characters from index `i` on have the property, up to the first that
    has not. -/
def runLength (t : Text) (ok : Char → Bool) (i : Nat) : Nat :=
  ((t.toList.drop i).takeWhile ok).length

variable {t : Text} {ok : Char → Bool} {i : Nat}

theorem drop_of_get? {c : Char} (h : t.get? i = some c) :
    t.toList.drop i = c :: t.toList.drop (i + 1) := by
  rw [get?_eq] at h
  obtain ⟨hi, hc⟩ := List.getElem?_eq_some_iff.mp h
  rw [List.drop_eq_getElem_cons hi, hc]

theorem drop_of_get?_none (h : t.get? i = none) : t.toList.drop i = [] := by
  rw [get?_eq, List.getElem?_eq_none_iff] at h
  exact List.drop_eq_nil_iff.mpr h

theorem runLength_succ {c : Char} (h : t.get? i = some c) (hc : ok c = true) :
    t.runLength ok i = t.runLength ok (i + 1) + 1 := by
  simp [runLength, drop_of_get? h, hc]

theorem runLength_stop {c : Char} (h : t.get? i = some c) (hc : ok c = false) :
    t.runLength ok i = 0 := by
  simp [runLength, drop_of_get? h, hc]

theorem runLength_end (h : t.get? i = none) : t.runLength ok i = 0 := by
  simp [runLength, drop_of_get?_none h]

theorem exists_of_runLength_ne_zero (h : t.runLength ok i ≠ 0) :
    ∃ c, t.get? i = some c ∧ ok c = true := by
  cases hget : t.get? i with
  | none => exact absurd (runLength_end hget) h
  | some c =>
    cases hc : ok c with
    | true => exact ⟨c, rfl, hc⟩
    | false => exact absurd (runLength_stop hget hc) h

theorem runLength_le (t : Text) (ok : Char → Bool) (i : Nat) : t.runLength ok i ≤ t.size - i := by
  have h := (List.takeWhile_prefix ok (l := t.toList.drop i)).length_le
  simpa [runLength] using h

theorem toList_slice_run (t : Text) (ok : Char → Bool) (i : Nat) :
    (t.slice i (i + t.runLength ok i)).toList = (t.toList.drop i).takeWhile ok := by
  rw [toList_slice, Nat.add_sub_cancel_left, runLength]
  exact (List.prefix_iff_eq_take.mp (List.takeWhile_prefix ok)).symm

end Text

namespace Pattern

variable {t : Text}

theorem search_one {cls : CharClass} {i : Nat} {c : Char} (hget : t.get? i = some c)
    (hc : cls.contains c = true) (next : Continuation) (caps : Captures) :
    (Node.one cls).search t next i caps = next (i + 1) caps := by
  simp only [Node.search, hget, hc, if_true]

theorem search_one_stop {cls : CharClass} {i : Nat} (next : Continuation) (caps : Captures)
    (h : t.runLength cls.contains i = 0) : (Node.one cls).search t next i caps = none := by
  simp only [Node.search]
  split
  · rename_i c hget
    split
    · rename_i hc
      rw [Text.runLength_succ hget hc] at h
      cases h
    · rfl
  · rfl

/-- A greedy loop over one class takes the whole run, if what follows accepts every
    place and the bound allows it. -/
theorem furtherRounds_one (cls : CharClass) (caps : Captures) (bound i : Nat) (last : Option Nat)
    (hlast : ∀ k, last = some k → k < i) (hbound : t.runLength cls.contains i ≤ bound) :
    furtherRounds true ((Node.one cls).search t) (fun j caps => some (j, caps)) bound last i caps
      = some (i + t.runLength cls.contains i, caps) := by
  induction bound generalizing i last with
  | zero =>
    have hzero : t.runLength cls.contains i = 0 := Nat.le_zero.mp hbound
    simp [furtherRounds, hzero]
  | succ bound ih =>
    have hfresh : (last == some i) = false := by
      cases last with
      | none => rfl
      | some k => simpa using Nat.ne_of_lt (hlast k rfl)
    simp only [furtherRounds, hfresh, Bool.false_eq_true, if_false, if_true]
    by_cases hzero : t.runLength cls.contains i = 0
    · rw [search_one_stop _ _ hzero, hzero]
      rfl
    · obtain ⟨c, hget, hc⟩ := Text.exists_of_runLength_ne_zero hzero
      have hlength := Text.runLength_succ hget hc
      rw [search_one hget hc, ih (i + 1) (some i) (fun k hk => by cases hk; omega) (by omega)]
      rw [hlength]
      simp only [Option.some.injEq, Prod.mk.injEq, and_true]
      omega

/-- **A run of one class is matched as far as it goes**, and not at all where it is
    empty. -/
theorem matchAt_runOf (source : String) (items : List ClassItem) (i : Nat) :
    (runOf source items).matchAt t i =
      if t.runLength (CharClass.contains { items }) i = 0 then none
      else some (i + t.runLength (CharClass.contains { items }) i) := by
  have hsearch : (runOf source items).root.search t (fun j caps => some (j, caps)) i []
      = (Node.one { items }).search t (fun j caps => furtherRounds true
          ((Node.one { items }).search t) (fun j caps => some (j, caps))
          (t.size - j + 1) none j caps) i [] := rfl
  rw [matchAt, hsearch]
  by_cases hzero : t.runLength (CharClass.contains { items }) i = 0
  · rw [search_one_stop _ _ hzero, if_pos hzero]
    rfl
  · obtain ⟨c, hget, hc⟩ := Text.exists_of_runLength_ne_zero hzero
    have hlength := Text.runLength_succ hget hc
    have hbound := Text.runLength_le t (CharClass.contains { items }) (i + 1)
    rw [if_neg hzero, search_one hget hc, furtherRounds_one _ _ _ _ none
      (fun k hk => by cases hk) (by omega), hlength]
    simp only [Option.map_some, Option.some.injEq]
    omega

theorem contains_digits (c : Char) :
    CharClass.contains { items := [.range '0' '9'] } c = c.isDigit := by
  simp [CharClass.contains, CharClass.hasItem, ClassItem.contains, Char.isDigit, Char.le_def]

theorem contains_letters (c : Char) :
    CharClass.contains { items := [.range 'A' 'Z', .range 'a' 'z'] } c = c.isAlpha := by
  have halpha : c.isAlpha
      = (decide ('A' ≤ c ∧ c ≤ 'Z') || (decide ('a' ≤ c) && decide (c ≤ 'z'))) := rfl
  rw [halpha]
  simp [CharClass.contains, CharClass.hasItem, ClassItem.contains]

end Pattern

/-- **What a run of one class reads**: the end of the input and an empty run fail, and
    anything else is taken as far as it goes. -/
theorem Parser.regex_runOf (name source : String) (items : List Pattern.ClassItem) (s : State)
    (hs : s.isError = false) :
    Parser.regex name (Pattern.runOf source items) s =
      if s.atEnd then pure (s.fail .endOfInput (name ++ ": Received unexpected end of input"))
      else if s.input.runLength (Pattern.CharClass.contains { items }) s.cursor = 0 then
        pure (Parser.regex.noMatch name s)
      else
        pure (s.advance (s.cursor + s.input.runLength (Pattern.CharClass.contains { items }) s.cursor)
          (.str (s.input.slice s.cursor
            (s.cursor + s.input.runLength (Pattern.CharClass.contains { items }) s.cursor)))) := by
  simp only [Parser.regex, hs, Pattern.matchAt_runOf, Bool.false_eq_true, if_false]
  refine ite_congr rfl (fun _ => rfl) fun _ => ?_
  by_cases hzero : s.input.runLength (Pattern.CharClass.contains { items }) s.cursor = 0
  · simp only [hzero, if_true]
  · have hmoved : ¬s.cursor + s.input.runLength (Pattern.CharClass.contains { items }) s.cursor
        = s.cursor := by omega
    simp only [hzero, hmoved, if_false]

end Descent
