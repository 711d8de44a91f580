/-
  Descent/Proofs/Agreement.lean
  =============================
  **The three ways of parsing a text agree.**

  `parse` looks whether there is an error, `attempt` whether the state is failed, and
  so do the combinators among themselves.  The two come to the same thing as long as
  they do in what user-written steps make of a clean state (`Grammar.Coherent`), and
  then a run in which no user function raises returns a state from which both read
  off the same answer (`Grammar.run_parse_attempt_agree`).
-/
import Descent.Proofs.Calls
import Descent.Proofs.Context
import Descent.Proofs.Reports

namespace Descent

open Run (SettlesOn)

/-- Failures are reported, with an error of whatever kind. -/
def FailureReport.erroneous : FailureReport where
  holds t := t.error ≠ none
  ofFail _ _ := nofun

namespace Grammar

variable {rules : Rules} {g : Grammar} {text : Text} {t : State} {j k : Journal}

/-! ### Failed states and errors -/

/-- Applied to a clean state, the step fails with an error or succeeds without one. -/
def Coherent (step : State → Response State) : Prop :=
  ∀ s t, s.Clean → (step s).outcome = .ok t → (t.isError = true ↔ t.error ≠ none)

theorem coherent_probe (p : Probe) : Coherent fun s => pure (p.step s) := by
  rintro s t ⟨hok, hnone⟩ ⟨⟩
  cases p with
  | anyChar =>
    simp only [Probe.step, Probe.anyCharStep, hok, Bool.false_eq_true, if_false]
    cases s.input.get? s.cursor <;> simp [State.advance, State.fail, State.withError, hok, hnone]
  | seek distance => simp [Probe.step, Probe.seekStep, State.advance, hok, hnone]
  | recover => simp [Probe.step]
  | failMove distance => simp [Probe.step, State.fail, State.withError, hok]

theorem metAt_erroneous {node : Grammar} (h : StepIs Coherent node) :
    node.MetAt FailureReport.erroneous.contract := by
  cases node with
  | custom name step =>
    intro s hs j t k hrun
    have hcoherent := h s t hs (Run.response_returned hrun)
    by_cases hfailed : t.isError = true
    · exact .inr ⟨hfailed, hcoherent.mp hfailed⟩
    · refine .inl ⟨by simpa using hfailed, ?_⟩
      simpa [hfailed] using hcoherent
  | literal text => exact FailureReport.erroneous.contract_moves.metBy_literal text
  | regex name pattern => exact FailureReport.erroneous.contract_moves.metBy_regex name pattern
  | errorMap _ _ =>
    intro s t e _ _
    exact (Run.Ensures.trivial _).mono fun r _ => .inr ⟨rfl, nofun⟩
  | _ => exact True.intro

/-- **A grammar fails with an error and succeeds without one.** -/
theorem isError_iff_error (hrules : rules.StepsAre Coherent) (hg : g.StepsAre Coherent)
    {s : State} (hs : s.Clean) (h : g.meaning rules s j = .returned t k) :
    t.isError = true ↔ t.error ≠ none := by
  have hanswer : Outcome.returned t k ≠ (.exhausted : Outcome State) := nofun
  obtain ⟨fuel, hfuel⟩ := (meaning_eq_iff rules hanswer).mp h
  have hmet : FailureReport.erroneous.contract.MetBy (g.parser rules fuel) :=
    parser_meets_of (fun _ => metAt_erroneous) hrules hg fuel
  rcases hmet s hs j t k hfuel with hclean | ⟨hfailed, herror⟩
  · simp [hclean.ok, hclean.noError]
  · exact ⟨fun _ => herror, fun _ => hfailed⟩

/-! ### Runs -/

theorem parse_rising (rules : Rules) (g : Grammar) (text : Text) :
    Run.Rising fun fuel => g.parse rules fuel text :=
  (run_rising rules g text).bind fun _ => .const _

theorem attempt_rising (rules : Rules) (g : Grammar) (text : Text) :
    Run.Rising fun fuel => g.attempt rules fuel text :=
  (run_rising rules g text).bind fun _ => .const _

theorem limit_parse (rules : Rules) (g : Grammar) (text : Text)
    (h : Run.limit (fun fuel => g.run rules fuel text) j = .returned t k) :
    Run.limit (fun fuel => g.parse rules fuel text) j = match t.error with
      | some e => .raised (.parseFailure t e) k
      | none => .returned t.result k := by
  have hparse := Run.limit_bind_left (run_rising rules g text) fun s => match s.error with
    | some e => Run.raise (.parseFailure s e)
    | none => pure s.result
  refine (congrFun hparse j).trans ?_
  rw [Run.bind_returned h]
  cases t.error <;> rfl

theorem limit_attempt (rules : Rules) (g : Grammar) (text : Text)
    (h : Run.limit (fun fuel => g.run rules fuel text) j = .returned t k) :
    Run.limit (fun fuel => g.attempt rules fuel text) j
      = .returned (if t.isError then (.null, t.error) else (t.result, none)) k := by
  have hattempt := Run.limit_bind_left (run_rising rules g text) fun s =>
    if s.isError then pure (Value.null, s.error) else pure (s.result, none)
  refine (congrFun hattempt j).trans ?_
  rw [Run.bind_returned h]
  cases t.isError <;> rfl

/-- A run without a fault anywhere that ends returns what its grammar does. -/
theorem run_of_calm (hcalm : (Application.ofRun g text j).Calm rules)
    (hends : ∃ fuel, g.run rules fuel text j ≠ .exhausted) :
    ∃ t k l, g.meaning rules (State.initial text) (Application.ofRun g text j).journal
        = .returned t k ∧
      Run.limit (fun fuel => g.run rules fuel text) j = .returned t l := by
  have hlimit := congrFun (limit_run rules g text) j
  rw [Run.bind_returned (Run.debugLine_apply _ j)] at hlimit
  change _ = (g.meaning rules (State.initial text) >>= _) (Application.ofRun g text j).journal
    at hlimit
  cases hmeaning : g.meaning rules (State.initial text) (Application.ofRun g text j).journal with
  | returned t k =>
    obtain ⟨l, hclose⟩ := Run.exists_debugLine (run.closingLine g t) k
    rw [Run.bind_returned hmeaning, Run.bind_returned hclose] at hlimit
    exact ⟨t, k, l, rfl, hlimit⟩
  | raised fault k =>
    obtain ⟨a, hreaches, hfaults⟩ := raises_iff.mp hmeaning
    exact absurd hfaults (hcalm a fault k hreaches)
  | exhausted =>
    obtain ⟨fuel, hfuel⟩ := hends
    rw [Run.bind_apply, hmeaning, (run_rising rules g text).limit_eq hfuel] at hlimit
    exact absurd hlimit hfuel

/-- Running, parsing and attempting a text all end as the terminal state `t` says. -/
structure EndsAs (rules : Rules) (g : Grammar) (text : Text) (j : Journal) (t : State) : Prop where
  run : ∃ k, SettlesOn (fun fuel => g.run rules fuel text) j (.returned t k)
  failed_iff : t.isError = true ↔ t.error ≠ none
  parse_returns (v : Value) :
    (∃ k, SettlesOn (fun fuel => g.parse rules fuel text) j (.returned v k)) ↔
      t.isError = false ∧ t.result = v
  attempt_succeeds (v : Value) :
    (∃ k, SettlesOn (fun fuel => g.attempt rules fuel text) j (.returned (v, none) k)) ↔
      t.isError = false ∧ t.result = v
  parse_raises (u : State) (e : ParseError) :
    (∃ k, SettlesOn (fun fuel => g.parse rules fuel text) j (.raised (.parseFailure u e) k)) ↔
      t.isError = true ∧ u = t ∧ t.error = some e
  attempt_fails (v : Value) (e : ParseError) :
    (∃ k, SettlesOn (fun fuel => g.attempt rules fuel text) j (.returned (v, some e) k)) ↔
      t.isError = true ∧ v = .null ∧ t.error = some e

/-- **Running, parsing and attempting agree.**  Where no user function raises and the run
    ends, the run returns a state, which has failed exactly if it holds an error.  Then
    parsing returns a value, and attempting gives that value and no error, exactly if the
    state has not failed and its result is that value; and parsing raises the failure of
    a parse, and attempting gives no value and an error, exactly if the state has failed
    with that error. -/
theorem run_parse_attempt_agree (hrules : rules.StepsAre Coherent) (hg : g.StepsAre Coherent)
    (hcalm : (Application.ofRun g text j).Calm rules)
    (hends : ∃ fuel, g.run rules fuel text j ≠ .exhausted) : ∃ t, EndsAs rules g text j t := by
  obtain ⟨t, m, k, hmeaning, hrun⟩ := run_of_calm hcalm hends
  have hiff := isError_iff_error hrules hg (State.initial_clean text) hmeaning
  have hparse := limit_parse rules g text hrun
  have hattempt := limit_attempt rules g text hrun
  refine ⟨t, ⟨k, (run_rising rules g text).settlesOn_iff.mpr hrun⟩, hiff, ?_, ?_, ?_, ?_⟩
  all_goals
    simp only [(parse_rising rules g text).settlesOn_iff,
      (attempt_rising rules g text).settlesOn_iff, hparse, hattempt]
    cases herror : t.error with
    | none =>
      have hok : t.isError = false := by simpa [herror] using hiff
      simp [hok]
    | some e =>
      have hfailed : t.isError = true := by simp [hiff, herror]
      simp [hfailed, eq_comm]

/-! ### A table with steps and functions that may raise -/

/-- A cell is an integer in brackets. -/
def cells : Rules :=
  [("cell", between (.literal "(") (.literal ")") (.map digits readInteger))]

/-- Any character, a cell, and steps that move about, fail and recover. -/
def cellBehindMark : Grammar :=
  .sequence [Probe.anyChar.grammar, ref "cell",
    .choice [(Probe.failMove 3).grammar, (Probe.seek 1).grammar], Probe.recover.grammar]

theorem cells_coherent : cells.StepsAre Coherent := by
  apply Rules.everywhere_of_mem
  simp [cells, between, StepIs, digits]

theorem cellBehindMark_coherent : cellBehindMark.StepsAre Coherent := by
  simp [StepsAre, cellBehindMark, ref, Probe.grammar, StepIs, coherent_probe]

/-- The steps only ever see clean states, and only numerals are read as integers. -/
theorem cell_run_parse_attempt_agree :
    cells.StepsAre Coherent ∧ cellBehindMark.StepsAre Coherent ∧
      (Application.ofRun cellBehindMark (Text.ofString "#(42)ab") {}).Calm cells ∧
      (∃ fuel, cellBehindMark.run cells fuel (Text.ofString "#(42)ab") {} ≠ .exhausted) ∧
      ∃ t, EndsAs cells cellBehindMark (Text.ofString "#(42)ab") {} t := by
  obtain ⟨t, k, hparser⟩ : ∃ t k, cellBehindMark.parser cells 12
      (State.initial (Text.ofString "#(42)ab")) {} = .returned t k := ⟨_, _, rfl⟩
  have hanswer : Outcome.returned t k ≠ (.exhausted : Outcome State) := nofun
  have hcalm : (Application.ofRun cellBehindMark (Text.ofString "#(42)ab") {}).Calm cells :=
    calm_of_returned ((meaning_eq_iff cells hanswer).mpr ⟨12, hparser⟩)
  have hends : ∃ fuel, cellBehindMark.run cells fuel (Text.ofString "#(42)ab") {} ≠ .exhausted :=
    ⟨12, nofun⟩
  exact ⟨cells_coherent, cellBehindMark_coherent, hcalm, hends,
    run_parse_attempt_agree cells_coherent cellBehindMark_coherent hcalm hends⟩

end Grammar

end Descent
