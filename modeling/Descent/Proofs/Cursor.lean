/-
  Descent/Proofs/Cursor.lean
  ==========================
  **The cursor only moves forward, and never further than the text.**

  Whatever a grammar without user-written steps returns, failed or not, has the
  input that it was given, and its cursor lies between the cursor it was given and
  the end of the input.  A cursor that already stood past the end stays where it is.

  Every operation on parsers keeps such a relation (`Descent.Proofs.Ensures`), so it
  is enough to look at the two leaves that move the cursor, and at user-written steps
  if there are any: those that stay where they are do no harm
  (`Grammar.cursor_between_start_and_end`).
-/
import Descent.Grammar.Probe
import Descent.Proofs.Ensures
import Descent.Proofs.Matching

namespace Descent

/-- The state `t` has the input of `s`, and its cursor is not before that of `s` and
    not behind the text, unless that of `s` was. -/
structure State.Advances (s t : State) : Prop where
  input : t.input = s.input
  le : s.cursor ≤ t.cursor
  bound : t.cursor ≤ max s.cursor s.input.size

namespace State

theorem Advances.frame : Parser.Frame Advances where
  refl s := ⟨rfl, Nat.le_refl _, Nat.le_max_left _ _⟩
  trans := by
    intro s t u hst htu
    have hsize : t.input.size = s.input.size := by rw [hst.input]
    have htop := htu.bound
    have hmid := hst.bound
    rw [hsize] at htop
    exact ⟨htu.input.trans hst.input, Nat.le_trans hst.le htu.le, by omega⟩
  withResult s v := ⟨rfl, Nat.le_refl _, Nat.le_max_left _ _⟩
  withError s e := ⟨rfl, Nat.le_refl _, Nat.le_max_left _ _⟩

theorem Advances.fail (s : State) (kind : ErrorKind) (message : String) :
    s.Advances (s.fail kind message) :=
  Advances.frame.fail s kind message

theorem Advances.advance {s : State} {cursor : Nat} (value : Value) (hle : s.cursor ≤ cursor)
    (hsize : cursor ≤ s.input.size) : s.Advances (s.advance cursor value) :=
  ⟨rfl, hle, Nat.le_trans hsize (Nat.le_max_right _ _)⟩

end State

theorem Text.hasAt_fits {t : Text} {cs : List Char} {i : Nat} (hi : i ≤ t.size)
    (h : t.hasAt cs i = true) : i + cs.length ≤ t.size := by
  have hlength := ((hasAt_iff_isPrefixOf t cs i).mp h).length_le
  rw [List.length_drop, length_toList] at hlength
  omega

namespace Parser

open Run (Ensures)

/-! ### The matchers of the library -/

/-- A contract that allows the cursor to be moved forward, within the text. -/
def Contract.Moves (c : Contract) : Prop :=
  ∀ (s : State) (cursor : Nat) (v : Value), c.before s → s.cursor ≤ cursor →
    cursor ≤ s.input.size → c.after s (s.advance cursor v)

namespace Contract.Moves

variable {c : Contract} (hc : c.Moves)

include hc

theorem metBy_literal (text : String) : c.MetBy (literal text) := by
  apply c.metBy_guarded
  intro s hs _
  refine .ite (fun hend => ?_) fun hend => ?_
  · have hcursor : s.input.size ≤ s.cursor := by simpa [State.atEnd] using hend
    exact .pure (c.fail hs .endOfInput _ hcursor)
  · have hcursor : s.cursor < s.input.size := by simpa [State.atEnd] using hend
    refine .ite (fun hhas => ?_) fun _ => ?_
    · have hfits := Text.hasAt_fits (Nat.le_of_lt hcursor) hhas
      rw [String.length_toList] at hfits
      exact .pure (hc s _ _ hs (Nat.le_add_right _ _) hfits)
    · exact .pure (c.fail hs .literalMismatch _ hcursor)

theorem metBy_regex (name : String) (pattern : Pattern) : c.MetBy (regex name pattern) := by
  apply c.metBy_guarded
  intro s hs _
  refine .ite (fun hend => ?_) fun hend => ?_
  · have hcursor : s.input.size ≤ s.cursor := by simpa [State.atEnd] using hend
    exact .pure (c.fail hs .endOfInput _ hcursor)
  · have hcursor : s.cursor < s.input.size := by simpa [State.atEnd] using hend
    have hno : (pure (regex.noMatch name s) : Run State).Ensures (c.after s) :=
      .pure (c.fail hs .classMismatch _ hcursor)
    cases hmatch : pattern.matchAt s.input s.cursor with
    | none => exact hno
    | some stop =>
      obtain ⟨hle, hsize⟩ := Pattern.matchAt_bounds (Nat.le_of_lt hcursor) hmatch
      exact .ite (fun _ => hno) fun _ => .pure (hc s stop _ hs hle hsize)

end Contract.Moves

theorem advances_moves : State.Advances.frame.contract.Moves :=
  fun _ _ v _ hle hsize => .advance v hle hsize

theorem literal_advances (text : String) : Keeps State.Advances (literal text) :=
  State.Advances.frame.metBy_iff.mp (advances_moves.metBy_literal text)

theorem regex_advances (name : String) (pattern : Pattern) :
    Keeps State.Advances (regex name pattern) :=
  State.Advances.frame.metBy_iff.mp (advances_moves.metBy_regex name pattern)

end Parser

namespace Grammar

variable {rules : Rules} {g : Grammar}

/-- The user-written step moves the cursor as a parser of the library does. -/
def Moderate (step : State → Response State) : Prop :=
  Parser.Keeps State.Advances fun s => (step s).run

theorem StepsAre.keptByLeaf (hg : g.StepsAre Moderate) :
    Everywhere (KeptByLeaf State.Advances) g := by
  apply hg.mono
  intro node hnode
  cases node with
  | custom name step => exact hnode
  | literal text => exact Parser.literal_advances text
  | regex name pattern => exact Parser.regex_advances name pattern
  | _ => exact True.intro

theorem parser_advances_of_steps (hrules : rules.StepsAre Moderate) (hg : g.StepsAre Moderate)
    (fuel : Nat) : Parser.Keeps State.Advances (g.parser rules fuel) :=
  keeps_of_frame State.Advances.frame (fun name body h => StepsAre.keptByLeaf (hrules name body h))
    fuel g hg.keptByLeaf

/-- **The cursor only moves forward, and never further than the text.** -/
theorem parser_advances (hrules : rules.StepFree) (hg : g.StepFree) (fuel : Nat) :
    Parser.Keeps State.Advances (g.parser rules fuel) :=
  parser_advances_of_steps hrules.stepsAre hg.stepsAre fuel

theorem meaning_advances (hrules : rules.StepFree) (hg : g.StepFree) :
    Parser.Keeps State.Advances (g.meaning rules) :=
  meaning_keeps fun fuel => parser_advances hrules hg fuel

/-! ### Steps that stay where they are -/

/-- The user-written step leaves the input and the cursor as they are, whatever else it
    does. -/
def StaysPut (step : State → Response State) : Prop :=
  ∀ s t, (step s).outcome = .ok t → t.input = s.input ∧ t.cursor = s.cursor

theorem StaysPut.moderate {step : State → Response State} (h : StaysPut step) :
    Moderate step := by
  intro s j t k hreturned
  obtain ⟨hinput, hcursor⟩ := h s t (Run.response_returned hreturned)
  constructor
  · exact hinput
  · exact Nat.le_of_eq hcursor.symm
  · rw [hcursor]
    exact Nat.le_max_left _ _

theorem StepsAre.moderate (hg : g.StepsAre StaysPut) : g.StepsAre Moderate := by
  apply hg.mono
  intro node hnode
  cases node with
  | custom name step => exact StaysPut.moderate hnode
  | _ => exact True.intro

/-- **The cursor stays between where it was and the end of the input.**  Whatever state
    an application starts from, also one whose cursor is past the end, and whether it
    succeeds or fails: the input is the same afterwards, and the cursor has not moved
    back, nor out of the text. -/
theorem cursor_between_start_and_end (hrules : rules.StepsAre StaysPut)
    (hg : g.StepsAre StaysPut) {fuel : Nat} {s t : State} {j k : Journal}
    (h : g.parser rules fuel s j = .returned t k) :
    t.input = s.input ∧ s.cursor ≤ t.cursor ∧ t.cursor ≤ max s.cursor s.input.size := by
  have hsteps : rules.StepsAre Moderate := fun name body hlookup =>
    StepsAre.moderate (hrules name body hlookup)
  have hadvances := parser_advances_of_steps hsteps hg.moderate fuel s j t k h
  exact ⟨hadvances.input, hadvances.le, hadvances.bound⟩

/-! ### A table with a step that stays put -/

/-- A word is in brackets or not, or it is missing, and a user-written step stands in for
    it. -/
def words : Rules :=
  [("word", .choice
    [.sequence [.literal "(", ref "word", .literal ")"], letters, Probe.recover.grammar])]

theorem recover_staysPut : StaysPut fun s => pure (Probe.recover.step s) := by
  intro s t h
  cases h
  exact ⟨rfl, rfl⟩

theorem words_stepsAre : words.StepsAre StaysPut := by
  apply Rules.everywhere_of_mem
  simp [words, StepIs, letters, ref, Probe.grammar, recover_staysPut]

/-- The second word is not closed, so nothing of it is kept. -/
theorem word_list_cursor_between :
    words.StepsAre StaysPut ∧ (sepBy (literal ",") (ref "word")).StepsAre StaysPut ∧
      ∃ t k, (sepBy (literal ",") (ref "word")).parser words 12
          (State.initial (Text.ofString "(ab),(c")) {} = .returned t k ∧
        t.input = Text.ofString "(ab),(c" ∧ 0 ≤ t.cursor ∧ t.cursor ≤ max 0 7 := by
  have hlist : (sepBy (literal ",") (ref "word")).StepsAre StaysPut := by
    simp [StepsAre, StepIs, ref]
  obtain ⟨t, k, h⟩ : ∃ t k, (sepBy (literal ",") (ref "word")).parser words 12
      (State.initial (Text.ofString "(ab),(c")) {} = .returned t k := ⟨_, _, rfl⟩
  exact ⟨words_stepsAre, hlist, t, k, h, cursor_between_start_and_end words_stepsAre hlist h⟩

end Grammar

end Descent
