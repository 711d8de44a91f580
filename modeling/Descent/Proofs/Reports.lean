/-
  Descent/Proofs/Reports.lean
  ===========================
  **What a failed state reports, and where.**

  A state without an error that has not failed is clean.  Applied to a clean state, a
  parser of the library returns a clean one or fails with a report, and this is a
  contract (`Parser.Contract`) whatever is asked of the report, as long as a failure at
  the place where it happens is reported so (`FailureReport`).

  What a report has to be in the first place is truthful about the place: the error
  says where the state stands, the end of the input is reported at the end only and a
  mismatch only where there is a character (`Grammar.error_located`).  A handler of
  errors keeps that as long as it only finds other words.
-/
import Descent.Proofs.Cursor

namespace Descent

namespace State

/-- Neither failed nor with an error. -/
structure Clean (s : State) : Prop where
  ok : s.isError = false
  noError : s.error = none

/-- The state holds an error that says where the state stands, and that is true of the
    place. -/
def Located (t : State) : Prop :=
  ∃ e, t.error = some e ∧ e.position = t.cursor ∧ t.Admits e.kind

theorem initial_clean (input : Text) : (initial input).Clean := ⟨rfl, rfl⟩

theorem fail_located {s : State} {kind : ErrorKind} (message : String) (hkind : s.Admits kind) :
    (s.fail kind message).Located :=
  ⟨_, rfl, rfl, hkind⟩

end State

/-- What may be asked of a failed state, if every failure is reported so where it
    happens. -/
structure FailureReport where
  holds : State → Prop
  ofFail {s : State} {kind : ErrorKind} (message : String) (hkind : s.Admits kind) :
    holds (s.fail kind message)

namespace FailureReport

open Descent.Parser (Contract)

variable (r : FailureReport) {s t : State}

/-- Clean, or failed with a report. -/
def Given (t : State) : Prop := t.Clean ∨ t.isError = true ∧ r.holds t

theorem given_withResult (h : s.Clean) (v : Value) : r.Given (s.withResult v) :=
  .inl ⟨h.ok, h.noError⟩

/-- The contract: applied to a clean state, a parser fails only with a report. -/
def contract : Contract where
  before := State.Clean
  after _ t := r.Given t
  stays h := .inl h
  follows _ htu := htu
  goesOn h ok := by
    rcases h with hclean | ⟨hfailed, -⟩
    · exact hclean
    · rw [hfailed] at ok
      cases ok
  withResult h v := r.given_withResult h v
  fail _ _ message hkind := .inr ⟨rfl, r.ofFail message hkind⟩

theorem contract_moves : r.contract.Moves :=
  fun _ _ _ h _ _ => .inl ⟨h.ok, h.noError⟩

/-- A state that holds an error has failed, and reported it. -/
theorem holds_of_error {e : ParseError} (h : r.Given t) (herror : t.error = some e) :
    r.holds t := by
  rcases h with hclean | ⟨-, hholds⟩
  · rw [hclean.noError] at herror
    cases herror
  · exact hholds

/-- Failures are reported, with the place where they happened. -/
def located : FailureReport where
  holds := State.Located
  ofFail := State.fail_located

end FailureReport

namespace Grammar

variable {rules : Rules} {g : Grammar}

/-- If the node is a handler of errors, it does nothing but word them anew. -/
def Rewords : Grammar → Prop
  | .errorMap _ handler => ∀ e cursor revision,
      (handler e cursor).outcome = .ok revision → ∃ text, revision = .message text
  | _ => True

theorem Rewords.handles {body : Grammar} {handler : ParseError → Nat → Response Revision}
    (h : Rewords (.errorMap body handler)) :
    FailureReport.located.contract.Handles fun e cursor => (handler e cursor).run := by
  intro s t e ht herror j revision k hrun
  obtain ⟨text, rfl⟩ := h e t.cursor revision (Run.response_returned hrun)
  obtain ⟨e', he', hposition, hkind⟩ := FailureReport.located.holds_of_error ht herror
  rw [herror] at he'
  cases he'
  exact .inr ⟨rfl, _, rfl, hposition, hkind⟩

/-- A label is a handler that finds other words. -/
@[simp] theorem everywhere_rewords_label {body : Grammar} {expected : String} :
    Everywhere Rewords (label body expected) ↔ Everywhere Rewords body := by
  rw [label, everywhere_errorMap]
  constructor
  · exact fun h => h.2
  · intro h
    refine ⟨?_, h⟩
    rintro e cursor revision ⟨⟩
    exact ⟨_, rfl⟩

/-- The node keeps reports true: it is no user-written step, and no handler that makes
    up errors of its own. -/
theorem metAt_located {node : Grammar} (hstep : ¬node.IsStep) (hwords : node.Rewords) :
    node.MetAt FailureReport.located.contract := by
  cases node with
  | custom _ _ => exact absurd True.intro hstep
  | literal text => exact FailureReport.located.contract_moves.metBy_literal text
  | regex name pattern => exact FailureReport.located.contract_moves.metBy_regex name pattern
  | errorMap _ _ => exact hwords.handles
  | _ => exact True.intro

/-- **Errors are located truthfully.**  Applied to any state that has not failed and
    that holds no error, a grammar of the library fails with an error that gives the
    cursor of the failed state as its position; an unexpected end of the input is at
    the end of the input or behind it, and a mismatch is before it. -/
theorem error_located (hrules : rules.StepFree) (hg : g.StepFree)
    (hrulesWords : rules.Everywhere Rewords) (hgWords : Everywhere Rewords g)
    {fuel : Nat} {s t : State} {j k : Journal} (hok : s.isError = false) (hnone : s.error = none)
    (h : g.parser rules fuel s j = .returned t k) (hfailed : t.isError = true) :
    ∃ e, t.error = some e ∧ e.position = t.cursor ∧
      (e.kind = .endOfInput → (s.input.size : Int) ≤ e.position) ∧
      (e.kind = .literalMismatch ∨ e.kind = .classMismatch →
        e.position < (s.input.size : Int)) := by
  have hmet : FailureReport.located.contract.MetBy (g.parser rules fuel) :=
    parser_meets_of (fun _ hnode => metAt_located hnode.1 hnode.2)
      (fun name body hlookup => (hrules name body hlookup).and (hrulesWords name body hlookup))
      (hg.and hgWords) fuel
  have hinput := (parser_advances hrules hg fuel s j t k h).input
  rcases hmet s ⟨hok, hnone⟩ j t k h with hclean | ⟨-, e, he, hposition, hkind⟩
  · rw [hclean.ok] at hfailed
    cases hfailed
  · refine ⟨e, he, hposition, fun hend => ?_, fun hmismatch => ?_⟩
    · rw [hend, State.Admits, hinput] at hkind
      omega
    · have hlt : t.cursor < t.input.size := by
        rcases hmismatch with hliteral | hclass
        · rwa [hliteral] at hkind
        · rwa [hclass] at hkind
      rw [hinput] at hlt
      omega

/-! ### A table with relabelled errors -/

/-- A setting is a name, an equals sign and a number, which may have minus signs in front
    of it. -/
def settings : Rules :=
  [("setting", label (.sequence [letters, .literal "=", label (ref "value") "a value"])
      "a setting"),
   ("value", .chain (.many (.literal "-")) pure fun
      | .list [] => digits
      | _ => .named digits "negative number")]

theorem settings_stepFree : settings.StepFree := by
  apply Rules.everywhere_of_mem
  simp [settings, label, letters, digits, ref, IsStep]
  intro v
  split <;> simp

theorem settings_reword : settings.Everywhere Rewords := by
  apply Rules.everywhere_of_mem
  simp [settings, letters, digits, ref, Rewords]
  intro v
  split <;> simp [Rewords]

/-- A number is missing at the end of the text, behind a minus sign. -/
theorem setting_error_located :
    settings.StepFree ∧ (sequence [ref "setting", endOfInput]).StepFree ∧
      settings.Everywhere Rewords ∧ Everywhere Rewords (sequence [ref "setting", endOfInput]) ∧
      ∃ t k, (sequence [ref "setting", endOfInput]).parser settings 12
          (State.initial (Text.ofString "x=-")) {} = .returned t k ∧ t.isError = true ∧
        t.error.map (·.kind) = some .endOfInput ∧
        ∃ e, t.error = some e ∧ e.position = t.cursor ∧
          (e.kind = .endOfInput → 3 ≤ e.position) ∧
          (e.kind = .literalMismatch ∨ e.kind = .classMismatch → e.position < 3) := by
  have hfree : (sequence [ref "setting", endOfInput]).StepFree := by
    simp [StepFree, ref, IsStep]
  have hwords : Everywhere Rewords (sequence [ref "setting", endOfInput]) := by
    simp [ref, Rewords]
  obtain ⟨t, k, h, hfailed, hkind⟩ : ∃ t k,
      (sequence [ref "setting", endOfInput]).parser settings 12
          (State.initial (Text.ofString "x=-")) {} = .returned t k ∧ t.isError = true ∧
        t.error.map (·.kind) = some .endOfInput := ⟨_, _, rfl, rfl, rfl⟩
  exact ⟨settings_stepFree, hfree, settings_reword, hwords, t, k, h, hfailed, hkind,
    error_located settings_stepFree hfree settings_reword hwords rfl rfl h hfailed⟩

end Grammar

end Descent
