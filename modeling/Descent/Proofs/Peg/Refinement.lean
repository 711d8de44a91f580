/-
  Descent/Proofs/Peg/Refinement.lean
  ==================================
  **The engine and the derivations agree, in both directions and on failures too.**

  On every state that has not failed, with any journal, a grammar ends in a success at
  a place exactly where a match up to there is derived, and in a failure exactly where
  a failure is derived.  Where nothing is derived the application has no answer.

  Without an error in the state, labels are as good as absent.  With one, a label is
  derived like its body and a failure behind it: a success of the body still carries
  the error, and the label takes that for a failure.  `labelled_literal_fails` is the
  smallest case in which the two differ.
-/
import Descent.Proofs.LeftRecursion
import Descent.Proofs.Peg.Completeness

namespace Descent

namespace Grammar

open Peg (Derives Explains)

variable {rules : Rules} {g : Grammar}

/-- Enough fuel gives this answer, and no more fuel changes it. -/
def Answers (rules : Rules) (g : Grammar) (s : State) (j : Journal) (t : State) (k : Journal) :
    Prop :=
  ∃ n, ∀ fuel, n ≤ fuel → g.parser rules fuel s j = .returned t k

theorem answers_iff {s t : State} {j k : Journal} :
    g.Answers rules s j t k ↔ g.meaning rules s j = .returned t k := by
  constructor
  · rintro ⟨n, hn⟩
    have hanswer : Outcome.returned t k ≠ .exhausted := fun h => by cases h
    exact (meaning_eq_iff rules hanswer).mpr ⟨n, hn n (Nat.le_refl n)⟩
  · intro h
    obtain ⟨n, hn⟩ := parser_settles rules g s j
    exact ⟨n, fun fuel hfuel => (hn fuel hfuel).trans h⟩

/-- The grammar does at a state what its parsing expression derives at the cursor:
    it matches up to the same places, and fails where a failure is derived. -/
structure Refines (rules : Rules) (carries : Bool) (g : Grammar) (s : State) (j : Journal) :
    Prop where
  matches_iff (i : Nat) :
    (∃ t k, g.Answers rules s j t k ∧ t.isError = false ∧ t.cursor = i) ↔
      Derives (pegTable rules carries) s.input (toPeg carries g) s.cursor (some i)
  fails_iff :
    (∃ t k, g.Answers rules s j t k ∧ t.isError = true) ↔
      Derives (pegTable rules carries) s.input (toPeg carries g) s.cursor none

/-- The engine does at a state what is derived when labels are read as the state makes
    them. -/
theorem refines_of_isPeg
    (hrules : ∀ name body, rules.lookup name = some body → IsPeg rules body)
    (hg : IsPeg rules g) (s : State) (hs : s.isError = false) (j : Journal) :
    Refines rules s.error.isSome g s j := by
  have hat : Peg.At s.error.isSome s.input s.cursor s := ⟨hs, rfl, rfl, rfl⟩
  have hsound : ∀ t k, g.meaning rules s j = .returned t k →
      Explains (pegTable rules s.error.isSome) (toPeg s.error.isSome g) s t :=
    meaning_sound hrules hg s.error.isSome s hs rfl j
  constructor
  · intro i
    constructor
    · rintro ⟨t, k, ht, hok, rfl⟩
      exact ((hsound t k (answers_iff.mp ht)).matched hok).2
    · intro h
      obtain ⟨t, k, ht, hend⟩ := gives_of_derives hrules hg h s j hat
      exact ⟨t, k, answers_iff.mpr ht, hend.ok, hend.cursor⟩
  · constructor
    · rintro ⟨t, k, ht, hfailed⟩
      exact (hsound t k (answers_iff.mp ht)).failed hfailed
    · intro h
      obtain ⟨t, k, ht, hend⟩ := gives_of_derives hrules hg h s j hat
      exact ⟨t, k, answers_iff.mpr ht, hend⟩

/-- **The engine refines parsing expressions.**  From every state that has not failed a
    grammar answers what its parsing expression derives, where labels count as absent
    if the state carries no error, and as a failure behind their body if it does.  So
    labels can be left out exactly where the two readings derive the same. -/
theorem refines_peg (hrules : ∀ name body, rules.lookup name = some body → IsPeg rules body)
    (hg : IsPeg rules g) (s : State) (hs : s.isError = false) (j : Journal) :
    Refines rules s.error.isSome g s j ∧
      (Refines rules false g s j ↔ ∀ o,
        Derives (pegTable rules s.error.isSome) s.input (toPeg s.error.isSome g) s.cursor o ↔
          Derives (pegTable rules false) s.input (toPeg false g) s.cursor o) := by
  have hrefines := refines_of_isPeg hrules hg s hs j
  refine ⟨hrefines, ?_⟩
  constructor
  · intro hplain o
    cases o with
    | none => exact hrefines.fails_iff.symm.trans hplain.fails_iff
    | some i => exact (hrefines.matches_iff i).symm.trans (hplain.matches_iff i)
  · intro hsame
    constructor
    · exact fun i => (hrefines.matches_iff i).trans (hsame (some i))
    · exact hrefines.fails_iff.trans (hsame none)

/-- A state without an error reads every label as absent. -/
theorem refines_plain (hrules : ∀ name body, rules.lookup name = some body → IsPeg rules body)
    (hg : IsPeg rules g) (s : State) (hs : s.isError = false) (hnone : s.error = none)
    (j : Journal) : Refines rules false g s j := by
  have hrefines := refines_of_isPeg hrules hg s hs j
  rwa [hnone] at hrefines

/-! ### A table that refines parsing expressions -/

/-- A part that consumes by its shape may be repeated. -/
theorem Consumes.advancing (hrules : rules.StepFree) (hg : g.StepFree) (h : Consumes rules g) :
    Advancing rules g :=
  fun s _ => (consumes_sound hrules h hg s).mono fun _ ht => ht.lt

theorem groups_item_consumes : Consumes groups (ref "item") := by
  have hgroup : Consumes groups (ref "group") := by
    refine .lazy (.rule (by rfl) (.sequence List.mem_cons_self (.literal ?_)))
    decide
  refine .lazy (.rule (by rfl) (.choice fun p hp => ?_))
  simp only [List.mem_cons, List.not_mem_nil, or_false] at hp
  rcases hp with rfl | rfl
  · exact .regex "letters" Pattern.letters
  · exact hgroup

theorem groups_isPeg (name : String) (body : Grammar) (h : groups.lookup name = some body) :
    IsPeg groups body := by
  have hitem : Advancing groups (ref "item") :=
    groups_item_consumes.advancing groups_stepFree (ref_stepFree "item")
  simp only [groups, List.lookup_cons, List.lookup_nil] at h
  split at h
  · cases h
    refine .choice fun p hp => ?_
    simp only [List.mem_cons, List.not_mem_nil, or_false] at hp
    rcases hp with rfl | rfl
    · exact .letters
    · exact .ref "group"
  · split at h
    · cases h
      refine .sequence fun p hp => ?_
      simp only [List.mem_cons, List.not_mem_nil, or_false] at hp
      rcases hp with rfl | rfl | rfl
      · exact .literal (by decide)
      · exact .many (.ref "item") hitem
      · exact .literal (by decide)
    · cases h

theorem groups_labelled_item_refines_peg :
    (∀ name body, groups.lookup name = some body → IsPeg groups body) ∧
      IsPeg groups ((ref "item").label "an item") ∧
      (State.initial (Text.ofString "((a)b)")).isError = false ∧
      Refines groups false ((ref "item").label "an item")
        (State.initial (Text.ofString "((a)b)")) {} :=
  ⟨groups_isPeg, .label (.ref "item") "an item", rfl,
    (refines_peg groups_isPeg (.label (.ref "item") "an item") (State.initial _) rfl {}).1⟩

/-! ### A label on a state that carries an error -/

/-- A state that has not failed and carries an error. -/
def carrying : State :=
  { input := Text.ofString "a", error := some ⟨.message, "earlier failure", 0⟩ }

/-- The literal stands at the cursor, and its label makes a failure of that. -/
theorem labelled_literal_fails :
    IsPeg [] ((literal "a").label "x") ∧ carrying.isError = false ∧
      ¬Refines [] false ((literal "a").label "x") carrying {} := by
  refine ⟨.label (.literal (by decide)) "x", rfl, fun hrefines => ?_⟩
  have hderives : Derives (pegTable [] false) carrying.input
      (toPeg false ((literal "a").label "x")) carrying.cursor (some 1) :=
    .literal ⟨[], rfl⟩
  obtain ⟨t, k, ht, hok, -⟩ := (hrefines.matches_iff 1).mpr hderives
  obtain ⟨n, hn⟩ := ht
  have hbound : ∀ fuel, 2 ≤ fuel → ∃ u l,
      ((literal "a").label "x").parser [] fuel carrying {} = .returned u l ∧ u.isError = true := by
    intro fuel hfuel
    obtain ⟨m, rfl⟩ : ∃ m, fuel = m + 2 := ⟨fuel - 2, by omega⟩
    exact ⟨_, _, rfl, rfl⟩
  obtain ⟨u, l, hu, hfailed⟩ := hbound (max n 2) (Nat.le_max_right n 2)
  rw [hn (max n 2) (Nat.le_max_left n 2)] at hu
  cases hu
  exact absurd (hok.symm.trans hfailed) (by decide)

end Grammar

end Descent
