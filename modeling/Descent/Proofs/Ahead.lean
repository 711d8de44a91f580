/-
  Descent/Proofs/Ahead.lean
  =========================
  **What a leaf does, read off what is ahead of it.**

  `State.ahead` is the list of characters from the cursor on.  On a state that has
  not failed, a literal succeeds exactly where its text is a prefix of that list,
  a run of one class takes the longest prefix of such characters, and the end of
  the input is where the list is empty.  Moving the cursor over a prefix takes the
  prefix off the list.

  Where a leaf does not find what it looks for it fails on the spot, and the list says
  of which kind the failure is: it is the end of the input if the list is empty
  (`ErrorKind.orEnd`).

  A grammar is followed by way of `State.Behind`: so many characters further on, with this
  ahead.  Where it ends in failure, `State.FailedAt` says what is reported and where.
-/
import Descent.Proofs.Matching
import Descent.Proofs.Ensures

namespace Descent

namespace State

/-- The characters from the cursor on. -/
def ahead (s : State) : List Char := s.input.toList.drop s.cursor

variable {s : State} {cs rest : List Char}

@[simp] theorem ahead_initial (text : Text) : (initial text).ahead = text.toList := by
  simp [ahead, initial]

@[simp] theorem ahead_withResult (s : State) (v : Value) : (s.withResult v).ahead = s.ahead := rfl

theorem ahead_advance (h : s.ahead = cs ++ rest) (v : Value) :
    (s.advance (s.cursor + cs.length) v).ahead = rest := by
  have hdrop : (s.advance (s.cursor + cs.length) v).ahead = s.ahead.drop cs.length := by
    simp [ahead, advance, List.drop_drop]
  rw [hdrop, h, List.drop_left]

theorem ahead_advance_one {c : Char} (h : s.ahead = c :: rest) (v : Value) :
    (s.advance (s.cursor + 1) v).ahead = rest := by
  have hsplit : s.ahead = [c] ++ rest := h
  exact ahead_advance hsplit v

theorem atEnd_iff : s.atEnd = true ↔ s.ahead = [] := by
  simp [atEnd, ahead]

/-- Nothing is left behind a prefix exactly if the text does not go beyond it. -/
theorem eq_nil_iff_of_ahead (h : s.ahead = cs ++ rest) :
    rest = [] ↔ s.input.size ≤ s.cursor + cs.length := by
  rw [← ahead_advance h .null, ← atEnd_iff, atEnd, decide_eq_true_eq]
  rfl

/-- The state `t` has not failed and stands `n` characters behind `s`, with `rest` ahead;
    from both one gets to the same states. -/
structure Behind (s : State) (n : Nat) (rest : List Char) (t : State) : Prop where
  ok : t.isError = false
  ahead : t.ahead = rest
  cursor : t.cursor = s.cursor + n
  advance : ∀ cursor v, t.advance cursor v = s.advance cursor v

namespace Behind

theorem start (hs : s.isError = false) (h : s.ahead = rest) : Behind s 0 rest s :=
  ⟨hs, h, rfl, fun _ _ => rfl⟩

theorem advance_run (hs : s.isError = false) (h : s.ahead = cs ++ rest) (v : Value) :
    Behind s cs.length rest (s.advance (s.cursor + cs.length) v) :=
  ⟨hs, ahead_advance h v, rfl, fun _ _ => rfl⟩

theorem advance_further {t : State} {n : Nat} (h : Behind s n (cs ++ rest) t) (v : Value) :
    Behind s (n + cs.length) rest (t.advance (t.cursor + cs.length) v) where
  ok := h.ok
  ahead := ahead_advance h.ahead v
  cursor := by
    rw [← Nat.add_assoc, ← h.cursor]
    rfl
  advance := h.advance

theorem advance_one {t : State} {c : Char} {n : Nat} (h : Behind s n (c :: rest) t) (v : Value) :
    Behind s (n + 1) rest (t.advance (t.cursor + 1) v) := by
  have hsplit : Behind s n ([c] ++ rest) t := h
  exact hsplit.advance_further v

end Behind

end State

/-- The kind of a failure to find something in front of the given characters: `kind`, but
    the end of the input where there are none. -/
def ErrorKind.orEnd (kind : ErrorKind) : List Char → ErrorKind
  | [] => .endOfInput
  | _ :: _ => kind

theorem ErrorKind.orEnd_of_ne {rest : List Char} (kind : ErrorKind) (h : rest ≠ []) :
    kind.orEnd rest = kind := by
  cases rest with
  | nil => exact absurd rfl h
  | cons c rest => rfl

/-- The state has failed where it stands, at the position `c`, and says so. -/
structure State.FailedAt (s : State) (kind : ErrorKind) (c : Nat) : Prop where
  isError : s.isError = true
  cursor : s.cursor = c
  error : ∃ message, s.error = some { kind, message, position := c }

namespace State.FailedAt

variable {s t : State} {kind kind' : ErrorKind} {c c' : Nat}

theorem fail (h : t.cursor = c) (kind : ErrorKind) (message : String) :
    (t.fail kind message).FailedAt kind c := by
  refine ⟨rfl, h, message, ?_⟩
  rw [← h]
  rfl

theorem unique (h : s.FailedAt kind c) (h' : s.FailedAt kind' c') : kind = kind' ∧ c = c' := by
  obtain ⟨message, herror⟩ := h.error
  obtain ⟨message', herror'⟩ := h'.error
  rw [herror] at herror'
  cases herror'
  exact ⟨rfl, h.cursor.symm.trans h'.cursor⟩

/-- What a state reports is told by any account of its failures that leaves none out. -/
theorem iff_of {account : ErrorKind → Nat → Prop}
    (hfails : ∀ kind c, account kind c → s.FailedAt kind c)
    (hsome : s.isError = true → ∃ kind c, account kind c) (kind : ErrorKind) (c : Nat) :
    s.FailedAt kind c ↔ account kind c := by
  refine ⟨fun h => ?_, hfails kind c⟩
  obtain ⟨kind', c', haccount⟩ := hsome h.isError
  obtain ⟨rfl, rfl⟩ := h.unique (hfails kind' c' haccount)
  exact haccount

end State.FailedAt

namespace Parser

variable {s : State} {rest : List Char}

/-! ### The end of the input -/

theorem endOfInput_here (hs : s.isError = false) (h : s.ahead = []) :
    endOfInput s = pure (s.withResult .null) := by
  have hend : s.atEnd = true := State.atEnd_iff.mpr h
  simp [endOfInput, hs, hend]

theorem endOfInput_left (hs : s.isError = false) (h : s.ahead ≠ []) :
    ∃ message, endOfInput s = pure (s.fail .message message) := by
  have hend : s.atEnd = false := by
    simpa using fun hend => h (State.atEnd_iff.mp hend)
  simp only [endOfInput, hs, hend, Bool.false_eq_true, if_false]
  exact ⟨_, rfl⟩

theorem endOfInput_elsewhere (hs : s.isError = false) (h : s.ahead ≠ []) :
    ∃ kind message, endOfInput s = pure (s.fail kind message) :=
  ⟨.message, endOfInput_left hs h⟩

/-! ### Literals -/

theorem literal_here {text : String} (htext : text ≠ "") (hs : s.isError = false)
    (h : s.ahead = text.toList ++ rest) :
    literal text s = pure (s.advance (s.cursor + text.length) (.str text)) := by
  have hne : s.ahead ≠ [] := by
    intro hnil
    rw [hnil] at h
    have hempty : text.toList = [] := (List.append_eq_nil_iff.mp h.symm).1
    exact htext (String.toList_eq_nil_iff.mp hempty)
  have hend : s.atEnd = false := by
    simpa using fun hend => hne (State.atEnd_iff.mp hend)
  have hhas : s.input.hasAt text.toList s.cursor = true := by
    rw [Text.hasAt_iff_isPrefixOf]
    exact ⟨rest, h.symm⟩
  simp [literal, hs, hend, hhas]

theorem literal_missing {text : String} (hs : s.isError = false) (h : ¬text.toList <+: s.ahead) :
    ∃ message,
      literal text s = pure (s.fail (ErrorKind.literalMismatch.orEnd s.ahead) message) := by
  have hhas : s.input.hasAt text.toList s.cursor = false := by
    simpa using fun hhas => h ((Text.hasAt_iff_isPrefixOf _ _ _).mp hhas)
  simp only [literal, hs, hhas, Bool.false_eq_true, if_false]
  by_cases hend : s.atEnd = true
  · rw [if_pos hend, State.atEnd_iff.mp hend]
    exact ⟨_, rfl⟩
  · rw [if_neg hend, ErrorKind.orEnd_of_ne _ fun hnil => hend (State.atEnd_iff.mpr hnil)]
    exact ⟨_, rfl⟩

theorem literal_elsewhere {text : String} (hs : s.isError = false)
    (h : ¬text.toList <+: s.ahead) :
    ∃ kind message, literal text s = pure (s.fail kind message) :=
  ⟨_, literal_missing hs h⟩

/-! ### Runs of one class -/

section Run

variable {name source : String} {items : List Pattern.ClassItem} {ok : Char → Bool}
  {cs : List Char}

/-- A run is taken as far as it goes. -/
theorem regex_run_here (hok : Pattern.CharClass.contains { items } = ok) (hs : s.isError = false)
    (hcs : s.ahead.takeWhile ok = cs) (hne : cs ≠ []) :
    regex name (Pattern.runOf source items) s
      = pure (s.advance (s.cursor + cs.length) (.str (String.ofList cs))) := by
  have hlength : s.input.runLength ok s.cursor = cs.length := by
    rw [← hcs]
    rfl
  have hslice : s.input.slice s.cursor (s.cursor + cs.length) = String.ofList cs := by
    rw [← hlength, ← String.toList_inj, Text.toList_slice_run, String.toList_ofList, ← hcs]
    rfl
  have hend : s.atEnd = false := by
    simp only [← Bool.not_eq_true, State.atEnd_iff]
    intro hnil
    rw [hnil] at hcs
    exact hne hcs.symm
  have hzero : cs.length ≠ 0 := by simpa using hne
  rw [regex_runOf name source items s hs, hok, hlength, hslice]
  simp [hend, hzero]

/-- Where the next character is not of the class, a run fails. -/
theorem regex_run_missing (hok : Pattern.CharClass.contains { items } = ok)
    (hs : s.isError = false) (hcs : s.ahead.takeWhile ok = []) :
    ∃ message, regex name (Pattern.runOf source items) s
      = pure (s.fail (ErrorKind.classMismatch.orEnd s.ahead) message) := by
  have hzero : s.input.runLength ok s.cursor = 0 := by
    have hlength : s.input.runLength ok s.cursor = (s.ahead.takeWhile ok).length := rfl
    rw [hlength, hcs]
    rfl
  rw [regex_runOf name source items s hs, hok, if_pos hzero]
  by_cases hend : s.atEnd = true
  · rw [if_pos hend, State.atEnd_iff.mp hend]
    exact ⟨_, rfl⟩
  · rw [if_neg hend, ErrorKind.orEnd_of_ne _ fun hnil => hend (State.atEnd_iff.mpr hnil)]
    exact ⟨_, rfl⟩

theorem regex_run_elsewhere (hok : Pattern.CharClass.contains { items } = ok)
    (hs : s.isError = false) (hcs : s.ahead.takeWhile ok = []) :
    ∃ kind message, regex name (Pattern.runOf source items) s = pure (s.fail kind message) :=
  ⟨_, regex_run_missing hok hs hcs⟩

end Run

/-! ### Runs of letters and runs of digits -/

section Named

variable {cs : List Char}

theorem letters_here (hs : s.isError = false) (hcs : s.ahead.takeWhile Char.isAlpha = cs)
    (hne : cs ≠ []) : regex "letters" Pattern.letters s
      = pure (s.advance (s.cursor + cs.length) (.str (String.ofList cs))) :=
  regex_run_here (funext Pattern.contains_letters) hs hcs hne

theorem letters_missing (hs : s.isError = false) (hcs : s.ahead.takeWhile Char.isAlpha = []) :
    ∃ message, regex "letters" Pattern.letters s
      = pure (s.fail (ErrorKind.classMismatch.orEnd s.ahead) message) :=
  regex_run_missing (funext Pattern.contains_letters) hs hcs

theorem digits_here (hs : s.isError = false) (hcs : s.ahead.takeWhile Char.isDigit = cs)
    (hne : cs ≠ []) : regex "digits" Pattern.digits s
      = pure (s.advance (s.cursor + cs.length) (.str (String.ofList cs))) :=
  regex_run_here (funext Pattern.contains_digits) hs hcs hne

theorem digits_missing (hs : s.isError = false) (hcs : s.ahead.takeWhile Char.isDigit = []) :
    ∃ message, regex "digits" Pattern.digits s
      = pure (s.fail (ErrorKind.classMismatch.orEnd s.ahead) message) :=
  regex_run_missing (funext Pattern.contains_digits) hs hcs

end Named

end Parser

/-- A run of digits reads as the number that it writes. -/
theorem Grammar.readInteger_digits {cs : List Char} (hne : cs ≠ [])
    (hdigits : ∀ c ∈ cs, c.isDigit = true) :
    Grammar.readInteger (.str (String.ofList cs)) = pure (.int (Numeral.ofDigits cs)) := by
  have hnatural : Numeral.natural? cs = some (Numeral.ofDigits cs) := by
    have hall : cs.all Char.isDigit = true := List.all_eq_true.mpr hdigits
    simp [Numeral.natural?, hne, hall]
  have hinteger : Numeral.integer? cs = some (Numeral.ofDigits cs : Int) := by
    cases cs with
    | nil => exact absurd rfl hne
    | cons c cs =>
      have hminus : c ≠ '-' := by
        rintro rfl
        exact absurd (hdigits '-' List.mem_cons_self) (by decide)
      unfold Numeral.integer?
      split
      · rename_i heq
        exact absurd (List.cons.inj heq).1 hminus
      · rw [hnatural]
        rfl
  simp [Grammar.readInteger, Value.numeral?, Value.string?, hinteger]

end Descent
