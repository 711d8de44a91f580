/-
  Descent/Proofs/MonadLaws.lean
  =============================
  **Parsers form a monad.**

  A continuation is a user function that makes a parser of a value; it may record its
  call, or raise a fault, before the parser is there.  `chain` puts one behind a parser,
  and `succeed` is the continuation that reads nothing.  To go on with `succeed` changes
  nothing, to go on twice is to go on once with both continuations in a row, and `map` is
  to go on with the value that its function answers.  These hold on every state, with
  the same effects in the same order and with the same fault.

  That `succeed` may be left out in front of a continuation holds on states that have not
  failed only.  On a failed state the continuation is not even called.  And the parser that
  the continuation makes is given the value as the result that was left to it, so it must
  not be one that reads this result (`Grammar.parsers_form_monad`).
-/
import Descent.Proofs.StaleResult

namespace Descent

namespace Response

variable {α β : Type}

@[simp] theorem run_pure (a : α) : (pure a : Response α).run = pure a := rfl

/-- The effects of an answer in two steps are those of the steps, in their order. -/
theorem run_bind (r : Response α) (f : α → Response β) :
    (r >>= f).run = r.run >>= fun a => (f a).run := by
  funext j
  change (r.bind f).run j = _
  rw [Run.bind_apply]
  cases hr : r.outcome with
  | ok a =>
    simp only [Response.run, Response.bind, hr, Journal.performAll, List.foldl_append]
  | error fault => simp only [Response.run, Response.bind, hr]

end Response

namespace Parser

variable {s : State}

/-! ### The laws -/

/-- A success that goes on with its own result stays what it is. -/
theorem succeed_result (hs : s.isError = false) : succeed s.result s = pure s := by
  rw [succeed, hs, if_neg Bool.false_ne_true]
  rfl

theorem chain_succeed (p : Parser) : (p.chain fun v => pure (succeed v)) = p := by
  funext s
  calc p.chain (fun v => pure (succeed v)) s
      = p s >>= pure := by
        refine bind_congr fun t => ?_
        cases ht : t.isError with
        | true => rfl
        | false => exact succeed_result ht
    _ = p s := bind_pure _

/-- Where the first continuation is not called, the second one is not either. -/
theorem chain_chain (p : Parser) (f g : Value → Run Parser) :
    (p.chain f).chain g = p.chain (fun v => do
      let q ← f v
      pure (q.chain g)) := by
  funext s
  simp only [chain, bind_assoc, pure_bind]
  refine bind_congr fun t => ?_
  cases ht : t.isError with
  | true => rw [if_pos rfl, if_pos rfl, pure_bind, if_pos ht]
  | false => rw [if_neg Bool.false_ne_true, if_neg Bool.false_ne_true, bind_assoc]

theorem map_eq_chain (p : Parser) (f : Value → Run Value) :
    p.map f = p.chain (fun v => do
      let w ← f v
      pure (succeed w)) := by
  funext s
  refine bind_congr fun t => ?_
  cases ht : t.isError with
  | true => rfl
  | false =>
    rw [if_neg Bool.false_ne_true, if_neg Bool.false_ne_true, bind_assoc]
    refine bind_congr fun w => ?_
    rw [pure_bind, succeed, ht, if_neg Bool.false_ne_true]

theorem chain_map (p : Parser) (f : Value → Run Parser) (g : Value → Run Value) :
    (p.chain f).map g = p.chain (fun v => do
      let q ← f v
      pure (q.map g)) := by
  simp only [map_eq_chain, chain_chain]

theorem map_pure (p : Parser) : p.map pure = p := by
  rw [map_eq_chain]
  simp only [pure_bind, chain_succeed]

theorem map_map (p : Parser) (f g : Value → Run Value) :
    (p.map f).map g = p.map (fun v => do
      let w ← f v
      g w) := by
  funext s
  simp only [map, bind_assoc]
  refine bind_congr fun t => ?_
  cases ht : t.isError with
  | true => rw [if_pos rfl, if_pos rfl, pure_bind, if_pos ht]
  | false =>
    rw [if_neg Bool.false_ne_true, if_neg Bool.false_ne_true, bind_assoc]
    refine bind_congr fun w => ?_
    have hok : ¬(t.withResult w).isError = true := by simp [State.withResult, ht]
    rw [pure_bind, if_neg hok]
    rfl

theorem succeed_chain (hs : s.isError = false) (v : Value) (f : Value → Run Parser) :
    (succeed v).chain f s = (do
      let q ← f v
      q (s.withResult v)) := by
  have hok : ¬(s.withResult v).isError = true := by simp [State.withResult, hs]
  rw [chain, succeed, hs, if_neg Bool.false_ne_true, pure_bind, if_neg hok]
  rfl

/-- On a failed state the continuation is not called. -/
theorem succeed_chain_of_failed (hs : s.isError = true) (v : Value) (f : Value → Run Parser) :
    (succeed v).chain f s = pure s := by
  rw [chain, succeed, if_pos hs, pure_bind, if_pos hs]

/-- A trace returns the state that it is given, whatever is logged. -/
theorem exists_trace (label : String) (s : State) (j : Journal) :
    ∃ k, trace label s j = .returned s k := by
  rw [trace, Run.bind_returned (x := Run.debugging) rfl]
  by_cases hlogs : (j.debug && !s.isError) = true
  · rw [if_pos hlogs]
    exact ⟨_, rfl⟩
  · rw [if_neg hlogs]
    exact ⟨_, rfl⟩

end Parser

namespace Grammar

variable {rules : Rules} {s : State}

/-! ### The laws for grammars -/

theorem meaning_chain_succeed (m : Grammar) :
    (chain m pure succeed).meaning rules = m.meaning rules := by
  simp only [meaning_chain, meaning_succeed, Response.run_pure, pure_bind, Parser.chain_succeed]

theorem meaning_chain_chain (m : Grammar) (f g : Value → Response Value) (p q : Value → Grammar) :
    (chain (chain m f p) g q).meaning rules
      = (chain m f fun v => chain (p v) g q).meaning rules := by
  simp only [meaning_chain, Parser.chain_chain, bind_assoc, pure_bind]

theorem meaning_map_eq_chain (m : Grammar) (f : Value → Response Value) :
    (map m f).meaning rules = (chain m f succeed).meaning rules := by
  simp only [meaning_map, meaning_chain, meaning_succeed, Parser.map_eq_chain]

theorem meaning_map_pure (m : Grammar) : (map m pure).meaning rules = m.meaning rules := by
  simp only [meaning_map, Response.run_pure, Parser.map_pure]

theorem meaning_map_map (m : Grammar) (f g : Value → Response Value) :
    (map (map m f) g).meaning rules = (map m fun v => f v >>= g).meaning rules := by
  simp only [meaning_map, Parser.map_map, Response.run_bind]

theorem meaning_succeed_chain (hs : s.isError = false) (v : Value) (f : Value → Response Value)
    (p : Value → Grammar) :
    (chain (succeed v) f p).meaning rules s = (do
      let w ← (f v).run
      (p w).meaning rules (s.withResult v)) := by
  simp only [meaning_chain, meaning_succeed, Parser.succeed_chain hs, bind_assoc, pure_bind]

/-! ### What is left as the result -/

/-- A grammar in which nothing reads the result may be left any. -/
theorem paired_withResult {g : Grammar} (hg : Throughout rules Oblivious g)
    (hs : s.isError = false) (v : Value) (j : Journal) :
    (g.meaning rules (s.withResult v) j).Paired (fun j k => j.calls = k.calls)
      State.SameUnlessFailed (g.meaning rules s j) := by
  have hstale := meaning_mirrors_of_throughout (fun _ => Oblivious.mirroredAt) hg
  have hresult : (s.withResult v).SameButResult s := ⟨rfl, rfl, rfl, rfl⟩
  exact (hstale _ _ ⟨hresult, hs⟩ j j rfl).paired (hstale _ _ ⟨hresult.symm, hs⟩ j j rfl)

theorem paired_succeed_chain (hs : s.isError = false) {v : Value} {f : Value → Response Value}
    {p : Value → Grammar} (hp : ∀ w, (f v).outcome = .ok w → Throughout rules Oblivious (p w))
    (j : Journal) :
    ((chain (succeed v) f p).meaning rules s j).Paired (fun j k => j.calls = k.calls)
      State.SameUnlessFailed
      ((do
        let w ← (f v).run
        (p w).meaning rules s) j) := by
  rw [meaning_succeed_chain hs, Run.bind_apply, Run.bind_apply]
  cases hf : (f v).run j with
  | returned w k => exact paired_withResult (hp w (Run.response_returned hf)) hs v k
  | raised fault k => exact ⟨rfl, rfl⟩
  | exhausted => exact True.intro

/-- **Parsers form a monad.**  On every state, `succeed` is no continuation to speak of, two
    continuations in a row are one, and a function behind a parser is the continuation that
    succeeds with its answer, so that functions compose: in each of these cases both sides
    have the same outcome, with the same effects in the same order or the same fault.  On a
    state that has not failed, a continuation behind `succeed v` does what the parser does
    that it makes of `v`, if nothing in that parser reads the result it is left: both raise
    the same fault, or return the same state, up to the result of a failure.  A failed state
    is returned as it is. -/
theorem parsers_form_monad (rules : Rules) (m : Grammar) (f g : Value → Response Value)
    (p q : Value → Grammar) (s : State) (j : Journal) :
    (∃ n, ∀ fuel, n ≤ fuel →
      (chain m pure succeed).parser rules fuel s j = m.parser rules fuel s j) ∧
    (∃ n, ∀ fuel, n ≤ fuel →
      (chain (chain m f p) g q).parser rules fuel s j
        = (chain m f fun v => chain (p v) g q).parser rules fuel s j) ∧
    (∃ n, ∀ fuel, n ≤ fuel →
      (map m f).parser rules fuel s j = (chain m f succeed).parser rules fuel s j) ∧
    (∃ n, ∀ fuel, n ≤ fuel →
      (map m pure).parser rules fuel s j = m.parser rules fuel s j) ∧
    (∃ n, ∀ fuel, n ≤ fuel →
      (map (map m f) g).parser rules fuel s j
        = (map m fun v => f v >>= g).parser rules fuel s j) ∧
    (∀ v, s.isError = false →
      (∀ w, (f v).outcome = .ok w → Throughout rules Oblivious (p w)) →
      ∃ n, ∀ fuel, n ≤ fuel →
        ((chain (succeed v) f p).parser rules fuel s j).Paired (fun j k => j.calls = k.calls)
          State.SameUnlessFailed
          ((do
            let w ← (f v).run
            (p w).parser rules fuel s) j)) ∧
    ∀ v, s.isError = true → Run.SettlesOn
      (fun fuel => (chain (succeed v) f p).parser rules fuel s) j (.returned s j) := by
  refine ⟨?_, ?_, ?_, ?_, ?_, fun v hs hp => ?_, fun v hs => ?_⟩
  · apply exists_fuel_of_meaning (T := Eq)
    rw [meaning_chain_succeed]
  · apply exists_fuel_of_meaning (T := Eq)
    rw [meaning_chain_chain]
  · apply exists_fuel_of_meaning (T := Eq)
    rw [meaning_map_eq_chain]
  · apply exists_fuel_of_meaning (T := Eq)
    rw [meaning_map_pure]
  · apply exists_fuel_of_meaning (T := Eq)
    rw [meaning_map_map]
  · -- What the continuation makes of the value is no grammar, so it settles for itself.
    have hmade : Run.Rising fun fuel => (f v).run >>= fun w => (p w).parser rules fuel s :=
      (Run.Rising.const (f v).run).bind fun w => (parser_rising rules (p w)).apply s
    obtain ⟨n, hn⟩ := parser_settles rules (chain (succeed v) f p) s j
    obtain ⟨n', hn'⟩ := hmade.settles j
    have hlimit := Run.limit_bind_right (f v).run fun w => (parser_rising rules (p w)).apply s
    refine ⟨max n n', fun fuel hfuel => ?_⟩
    rw [hn fuel (by omega), hn' fuel (by omega), hlimit]
    exact paired_succeed_chain hs hp j
  · rw [settlesOn_iff, meaning_chain, meaning_succeed, Parser.succeed_chain_of_failed hs]
    rfl

/-- A trace passes on the result that it is left, so it can tell whether there is a `succeed`
    in front of it. -/
theorem trace_behind_succeed (rules : Rules) (hs : s.isError = false) (v : Value)
    (label : String) (j : Journal) :
    ∃ k l, (chain (succeed v) pure fun _ => .trace label).meaning rules s j
        = .returned (s.withResult v) k ∧
      (trace label).meaning rules s j = .returned s l := by
  obtain ⟨k, hk⟩ := Parser.exists_trace label (s.withResult v) j
  obtain ⟨l, hl⟩ := Parser.exists_trace label s j
  refine ⟨k, l, ?_, ?_⟩
  · rw [meaning_succeed_chain hs, Response.run_pure, pure_bind, meaning_trace, hk]
  · rw [meaning_trace, hl]

/-! ### A value that decides what follows -/

/-- Sees a value and passes it on. -/
def seen (v : Value) : Response Value := do
  Response.call "seen" v
  pure v

/-- What to read behind a sign: a number, up to the end, or nothing that is known. -/
def behindSign : Value → Grammar
  | .str "#" => .sequence [digits, .endOfInput]
  | _ => .fail "no sign"

theorem behindSign_oblivious (v : Value) : Everywhere Oblivious (behindSign v) := by
  unfold behindSign
  split
  · simp [digits, Oblivious]
  · simp [Oblivious]

/-- A sign that is given and not read is followed by the number as well, also if something
    else was left as the result. -/
theorem sign_chain_laws :
    (∃ n, ∀ fuel, n ≤ fuel →
      (map (chain (literal "#") seen behindSign) seen).parser [] fuel
          (State.initial (Text.ofString "#42")) {}
        = (chain (chain (literal "#") seen behindSign) seen succeed).parser [] fuel
          (State.initial (Text.ofString "#42")) {}) ∧
      (∀ w, (seen (.str "#")).outcome = .ok w → Throughout [] Oblivious (behindSign w)) ∧
      (∃ n, ∀ fuel, n ≤ fuel →
        ((chain (succeed (.str "#")) seen behindSign).parser [] fuel
            { input := Text.ofString "#42", cursor := 1, result := .str "stale" } {}).Paired
          (fun j k => j.calls = k.calls) State.SameUnlessFailed
          ((do
            let w ← (seen (.str "#")).run
            (behindSign w).parser [] fuel
              { input := Text.ofString "#42", cursor := 1, result := .str "stale" }) {})) ∧
      (chain (succeed (.str "#")) seen behindSign).parser [] 4
          { input := Text.ofString "#42", cursor := 1, result := .str "stale" } {}
        = .returned { input := Text.ofString "#42", cursor := 3,
                      result := .list [.str "42", .null] }
            { calls := #[("seen", .str "#")] } ∧
      Run.SettlesOn (fun fuel => (chain (succeed (.str "#")) seen behindSign).parser [] fuel
          { input := Text.ofString "#42", isError := true }) {}
        (.returned { input := Text.ofString "#42", isError := true } {}) := by
  have hnotrace : ∀ w, (seen (.str "#")).outcome = .ok w → Throughout [] Oblivious (behindSign w) :=
    fun w _ => .of_everywhere nofun (behindSign_oblivious w)
  obtain ⟨-, -, hmap, -⟩ := parsers_form_monad [] (chain (literal "#") seen behindSign) seen seen
    behindSign behindSign (State.initial (Text.ofString "#42")) {}
  obtain ⟨-, -, -, -, -, hleft, -⟩ := parsers_form_monad [] (literal "#") seen seen
    behindSign behindSign { input := Text.ofString "#42", cursor := 1, result := .str "stale" } {}
  obtain ⟨-, -, -, -, -, -, hfailed⟩ := parsers_form_monad [] (literal "#") seen seen
    behindSign behindSign { input := Text.ofString "#42", isError := true } {}
  exact ⟨hmap, hnotrace, hleft _ rfl hnotrace, rfl, hfailed _ rfl⟩

end Grammar

end Descent
