/-
  Descent/Proofs/Steps.lean
  =========================
  **One step of each operation, from what the parser it applies has returned.**

  Where the parser that an operation applies first has returned a state, the
  operation stops there or goes on, and the state says which.  Each lemma is one of
  these two cases: `_failed` where the state has failed, `_ok` where it has not; for
  a loop the second is divided once more, into a round that is the last and one that
  is followed by another.
-/
import Descent.Grammar.Run
import Descent.Proofs.Meaning

namespace Descent

namespace Run

section Bind

variable {α β : Type} {x : Run α} {f : α → Run β} {fault : Fault} {j k : Journal}

theorem bind_returned {a : α} (h : x j = .returned a k) : (x >>= f) j = f a k := by
  rw [bind_apply, h]

theorem returned_of_bind {b : β} (h : (x >>= f) j = .returned b k) :
    ∃ a l, x j = .returned a l ∧ f a l = .returned b k := by
  rw [bind_apply] at h
  cases hx : x j with
  | returned a l =>
    rw [hx] at h
    exact ⟨a, l, rfl, h⟩
  | raised fault l =>
    rw [hx] at h
    cases h
  | exhausted =>
    rw [hx] at h
    cases h

theorem bind_raised (h : x j = .raised fault k) : (x >>= f) j = .raised fault k := by
  rw [bind_apply, h]

theorem bind_exhausted (h : x j = .exhausted) : (x >>= f) j = .exhausted := by
  rw [bind_apply, h]

/-- What faults in two steps faults in the first, or in the second after the first has
    returned. -/
theorem raised_of_bind (h : (x >>= f) j = .raised fault k) :
    x j = .raised fault k ∨ ∃ a l, x j = .returned a l ∧ f a l = .raised fault k := by
  rw [bind_apply] at h
  cases hx : x j with
  | returned a l =>
    rw [hx] at h
    exact .inr ⟨a, l, rfl, h⟩
  | raised fault' l =>
    rw [hx] at h
    cases h
    exact .inl rfl
  | exhausted =>
    rw [hx] at h
    cases h

/-- A fault comes from the branch that does not just return. -/
theorem raised_of_ite_pure {c : Prop} [Decidable c] {a : α}
    (h : (if c then pure a else x) j = .raised fault k) : ¬c ∧ x j = .raised fault k := by
  by_cases hc : c
  · rw [if_pos hc] at h
    cases h
  · rw [if_neg hc] at h
    exact ⟨hc, h⟩

/-- As `raised_of_ite_pure`, for the state of a parser and whether it has failed. -/
theorem raised_of_goesOn {s : State} {y : Run State}
    (h : (if s.isError then pure s else y) j = .raised fault k) :
    s.isError = false ∧ y j = .raised fault k := by
  obtain ⟨hok, hfault⟩ := raised_of_ite_pure h
  exact ⟨by simpa using hok, hfault⟩

/-- What follows a run that just returns where a condition holds. -/
theorem ite_pure_bind {c : Prop} [Decidable c] (a : α) (x : Run α) (f : α → Run β) :
    (if c then pure a else x) >>= f = if c then f a else x >>= f := by
  split <;> rfl

end Bind

/-- Logging a line adds to the log at most. -/
theorem debugLine_apply (line : String) (j : Journal) :
    debugLine line j = .returned () (if j.debug = true then j.write line else j) := by
  rw [debugLine, bind_returned (x := debugging) rfl]
  by_cases hdebug : j.debug = true
  · rw [if_pos hdebug, if_pos hdebug]
    rfl
  · rw [if_neg hdebug, if_neg hdebug]
    rfl

theorem exists_debugLine (line : String) (j : Journal) :
    ∃ k, debugLine line j = .returned () k :=
  ⟨_, debugLine_apply line j⟩

end Run

namespace Parser

variable {p q : Parser} {ps : List Parser} {results : List Value} {s t u : State}
  {j k l : Journal}

/-! ### One parser -/

theorem map_failed {f : Value → Run Value} (h : p s j = .returned t k) (ht : t.isError = true) :
    p.map f s j = .returned t k := by
  rw [map, Run.bind_returned h, if_pos ht]
  rfl

theorem map_ok {f : Value → Run Value} {v : Value} (h : p s j = .returned t k)
    (ht : t.isError = false) (hv : f t.result k = .returned v l) :
    p.map f s j = .returned (t.withResult v) l := by
  rw [map, Run.bind_returned h, ht, if_neg Bool.false_ne_true, Run.bind_returned hv]
  rfl

theorem chain_failed {next : Value → Run Parser} (h : p s j = .returned t k)
    (ht : t.isError = true) : p.chain next s j = .returned t k := by
  rw [chain, Run.bind_returned h, if_pos ht]
  rfl

theorem chain_ok {next : Value → Run Parser} (h : p s j = .returned t k) (ht : t.isError = false)
    (hnext : next t.result k = .returned q l) : p.chain next s j = q t l := by
  rw [chain, Run.bind_returned h, ht, if_neg Bool.false_ne_true, Run.bind_returned hnext]

theorem errorMap_none {handler : ParseError → Nat → Run Revision} (h : p s j = .returned t k)
    (ht : t.error = none) : p.errorMap handler s j = .returned t k := by
  rw [errorMap, Run.bind_returned h, ht]
  rfl

theorem errorMap_some {handler : ParseError → Nat → Run Revision} {e : ParseError} {r : Revision}
    (h : p s j = .returned t k) (ht : t.error = some e)
    (hr : handler e t.cursor k = .returned r l) :
    p.errorMap handler s j = .returned (t.withError (some (e.revise r))) l := by
  rw [errorMap, Run.bind_returned h, ht]
  exact Run.bind_returned hr

/-! ### Lists of parsers -/

theorem sequence_eq (hs : s.isError = false) : sequence ps s = sequenceFrom ps [] s := by
  rw [sequence, hs, if_neg Bool.false_ne_true]

theorem sequenceFrom_failed (h : p s j = .returned t k) (ht : t.isError = true) :
    sequenceFrom (p :: ps) results s j = .returned t k := by
  rw [sequenceFrom, Run.bind_returned h, if_pos ht]
  rfl

theorem sequenceFrom_ok (h : p s j = .returned t k) (ht : t.isError = false) :
    sequenceFrom (p :: ps) results s j = sequenceFrom ps (t.result :: results) t k := by
  rw [sequenceFrom, Run.bind_returned h, ht, if_neg Bool.false_ne_true]

/-- Parts that fail together make it irrelevant which parts follow. -/
theorem sequenceFrom_append_failed {qs : List Parser} (hs : s.isError = false)
    (ht : t.isError = true) (h : sequenceFrom ps results s j = .returned t k) :
    sequenceFrom (ps ++ qs) results s j = .returned t k := by
  induction ps generalizing results s j with
  | nil =>
    cases h
    exact absurd (hs.symm.trans ht) Bool.false_ne_true
  | cons p ps ih =>
    rw [List.cons_append]
    cases hp : p s j with
    | returned u l =>
      by_cases hu : u.isError = true
      · rw [sequenceFrom_failed hp hu] at h ⊢
        exact h
      · have hok : u.isError = false := by simpa using hu
        rw [sequenceFrom_ok hp hok] at h ⊢
        exact ih hok h
    | raised fault l =>
      rw [sequenceFrom, Run.bind_apply, hp] at h
      cases h
    | exhausted =>
      rw [sequenceFrom, Run.bind_apply, hp] at h
      cases h

theorem sequence_append_failed {qs : List Parser} (ht : t.isError = true)
    (h : sequence ps s j = .returned t k) : sequence (ps ++ qs) s j = .returned t k := by
  cases hs : s.isError with
  | true =>
    rw [sequence, if_pos hs] at h ⊢
    exact h
  | false =>
    rw [sequence_eq hs] at h ⊢
    exact sequenceFrom_append_failed hs ht h

theorem choice_eq (hs : s.isError = false) : choice ps s = choiceFrom ps s := by
  rw [choice, hs, if_neg Bool.false_ne_true]

theorem choiceFrom_failed (h : p s j = .returned t k) (ht : t.isError = true) :
    choiceFrom (p :: ps) s j = choiceFrom ps s k := by
  rw [choiceFrom, Run.bind_returned h, if_pos ht]

theorem choiceFrom_ok (h : p s j = .returned t k) (ht : t.isError = false) :
    choiceFrom (p :: ps) s j = .returned t k := by
  rw [choiceFrom, Run.bind_returned h, ht, if_neg Bool.false_ne_true]
  rfl

/-- A choice that falls back on a value. -/
theorem choice_succeed_eq (hs : s.isError = false) (v : Value) :
    choice [p, succeed v] s = (do
      let t ← p s
      if t.isError then pure (s.withResult v) else pure t) := by
  rw [choice_eq hs, choiceFrom]
  refine bind_congr fun t => ite_congr rfl (fun _ => ?_) fun _ => rfl
  have hvalue : ¬(s.withResult v).isError = true := by simp [State.withResult, hs]
  rw [choiceFrom, succeed, hs, if_neg Bool.false_ne_true, pure_bind, if_neg hvalue]

/-! ### Loops -/

/-- One round of a loop, and what `next` makes of it if it is not the last. -/
def round (p : Parser) (next : List Value → State → Run Harvest) (results : List Value)
    (s : State) : Run Harvest := do
  let t ← p s
  if t.isError then pure { results := results.reverse, state := s }
  else if t.cursor = s.cursor then pure { results := (t.result :: results).reverse, state := t }
  else next (t.result :: results) t

theorem collect_eq_round (p : Parser) (fuel : Nat) (results : List Value) (s : State) :
    collect p (fuel + 1) results s = round p (collect p fuel) results s := rfl

theorem gather_eq_round (p : Parser) (results : List Value) (s : State) :
    gather p results s = round p (gather p) results s :=
  gather_eq p results s

theorem round_failed {next : List Value → State → Run Harvest} (h : p s j = .returned t k)
    (ht : t.isError = true) :
    round p next results s j = .returned { results := results.reverse, state := s } k := by
  rw [round, Run.bind_returned h, if_pos ht]
  rfl

theorem round_last {next : List Value → State → Run Harvest} (h : p s j = .returned t k)
    (ht : t.isError = false) (hstays : t.cursor = s.cursor) :
    round p next results s j
      = .returned { results := (t.result :: results).reverse, state := t } k := by
  rw [round, Run.bind_returned h, ht, if_neg Bool.false_ne_true, if_pos hstays]
  rfl

theorem round_ok {next : List Value → State → Run Harvest} (h : p s j = .returned t k)
    (ht : t.isError = false) (hmoved : t.cursor ≠ s.cursor) :
    round p next results s j = next (t.result :: results) t k := by
  rw [round, Run.bind_returned h, ht, if_neg Bool.false_ne_true, if_neg hmoved]

theorem gather_failed (h : p s j = .returned t k) (ht : t.isError = true) :
    gather p results s j = .returned { results := results.reverse, state := s } k := by
  rw [gather_eq_round]
  exact round_failed h ht

theorem gather_ok (h : p s j = .returned t k) (ht : t.isError = false)
    (hmoved : t.cursor ≠ s.cursor) :
    gather p results s j = gather p (t.result :: results) t k := by
  rw [gather_eq_round]
  exact round_ok h ht hmoved

/-! ### Loops with a separator -/

/-- One round of a loop with a separator, and what `next` makes of it if it is not the
    last. -/
def separatedRound (sep value : Parser) (next : List Value → State → Run Harvest)
    (results : List Value) (s : State) : Run Harvest := do
  let t ← value s
  if t.isError then pure { results := results.reverse, state := s }
  else do
    let u ← sep t
    if u.isError || u.cursor == s.cursor then
      pure { results := (t.result :: results).reverse, state := t }
    else next (t.result :: results) u

theorem collectSeparated_eq_round (sep value : Parser) (fuel : Nat) (results : List Value)
    (s : State) :
    collectSeparated sep value (fuel + 1) results s
      = separatedRound sep value (collectSeparated sep value fuel) results s := rfl

theorem gatherSeparated_eq_round (sep value : Parser) (results : List Value) (s : State) :
    gatherSeparated sep value results s
      = separatedRound sep value (gatherSeparated sep value) results s :=
  gatherSeparated_eq sep value results s

theorem separatedRound_failed {next : List Value → State → Run Harvest}
    (h : q s j = .returned t k) (ht : t.isError = true) :
    separatedRound p q next results s j
      = .returned { results := results.reverse, state := s } k := by
  rw [separatedRound, Run.bind_returned h, if_pos ht]
  rfl

theorem separatedRound_last {next : List Value → State → Run Harvest}
    (h : q s j = .returned t k) (ht : t.isError = false) (hsep : p t k = .returned u l)
    (hstops : (u.isError || u.cursor == s.cursor) = true) :
    separatedRound p q next results s j
      = .returned { results := (t.result :: results).reverse, state := t } l := by
  rw [separatedRound, Run.bind_returned h, ht, if_neg Bool.false_ne_true,
    Run.bind_returned hsep, if_pos hstops]
  rfl

theorem separatedRound_ok {next : List Value → State → Run Harvest}
    (h : q s j = .returned t k) (ht : t.isError = false) (hsep : p t k = .returned u l)
    (hu : u.isError = false) (hmoved : u.cursor ≠ s.cursor) :
    separatedRound p q next results s j = next (t.result :: results) u l := by
  have hgoes : (u.isError || u.cursor == s.cursor) = false := by simp [hu, hmoved]
  rw [separatedRound, Run.bind_returned h, ht, if_neg Bool.false_ne_true,
    Run.bind_returned hsep, hgoes, if_neg Bool.false_ne_true]

theorem gatherSeparated_failed (h : q s j = .returned t k) (ht : t.isError = true) :
    gatherSeparated p q results s j
      = .returned { results := results.reverse, state := s } k := by
  rw [gatherSeparated_eq_round]
  exact separatedRound_failed h ht

theorem gatherSeparated_last (h : q s j = .returned t k) (ht : t.isError = false)
    (hsep : p t k = .returned u l) (hu : u.isError = true) :
    gatherSeparated p q results s j
      = .returned { results := (t.result :: results).reverse, state := t } l := by
  rw [gatherSeparated_eq_round]
  exact separatedRound_last h ht hsep (by rw [hu, Bool.true_or])

theorem gatherSeparated_ok (h : q s j = .returned t k) (ht : t.isError = false)
    (hsep : p t k = .returned u l) (hu : u.isError = false) (hmoved : u.cursor ≠ s.cursor) :
    gatherSeparated p q results s j = gatherSeparated p q (t.result :: results) u l := by
  rw [gatherSeparated_eq_round]
  exact separatedRound_ok h ht hsep hu hmoved

/-! ### What the loops make of what they gather -/

theorem repeated_of_gather {harvest : Harvest} (hs : s.isError = false)
    (h : gather p [] s j = .returned harvest k) :
    repeated p s j = .returned (harvest.state.withResult (.list harvest.results)) k := by
  rw [repeated, hs, if_neg Bool.false_ne_true, Run.bind_returned h]
  rfl

theorem repeated1_of_gather {harvest : Harvest} (hs : s.isError = false)
    (h : gather p [] s j = .returned harvest k) (hsome : 0 < harvest.results.length) :
    repeated1 p s j = .returned (harvest.state.withResult (.list harvest.results)) k := by
  have hnonempty : harvest.results.isEmpty = false := by
    simpa using List.ne_nil_of_length_pos hsome
  rw [repeated1, hs, if_neg Bool.false_ne_true, Run.bind_returned h, hnonempty,
    if_neg Bool.false_ne_true]
  rfl

theorem repeated1_of_nothing {harvest : Harvest} (hs : s.isError = false)
    (h : gather p [] s j = .returned harvest k) (hnone : harvest.results = []) :
    ∃ message, repeated1 p s j = .returned (s.fail .repetitionEmpty message) k := by
  rw [repeated1, hs, if_neg Bool.false_ne_true, Run.bind_returned h, hnone]
  exact ⟨_, rfl⟩

theorem separated_of_gather {harvest : Harvest} (hs : s.isError = false)
    (h : gatherSeparated p q [] s j = .returned harvest k) :
    separated p q s j = .returned (harvest.state.withResult (.list harvest.results)) k := by
  rw [separated, hs, if_neg Bool.false_ne_true, Run.bind_returned h]
  rfl

theorem separated1_of_gather {harvest : Harvest} (hs : s.isError = false)
    (h : gatherSeparated p q [] s j = .returned harvest k) (hsome : 0 < harvest.results.length) :
    separated1 p q s j = .returned (harvest.state.withResult (.list harvest.results)) k := by
  have hnonempty : harvest.results.isEmpty = false := by
    simpa using List.ne_nil_of_length_pos hsome
  rw [separated1, hs, if_neg Bool.false_ne_true, Run.bind_returned h, hnonempty,
    if_neg Bool.false_ne_true]
  rfl

theorem separated1_of_nothing {harvest : Harvest} (hs : s.isError = false)
    (h : gatherSeparated p q [] s j = .returned harvest k) (hnone : harvest.results = []) :
    ∃ message, separated1 p q s j = .returned (s.fail .repetitionEmpty message) k := by
  rw [separated1, hs, if_neg Bool.false_ne_true, Run.bind_returned h, hnone]
  exact ⟨_, rfl⟩

end Parser

/-- A text is parsed to the state that the grammar returns at its beginning; what is
    logged around that makes no difference to it. -/
theorem Grammar.exists_run_returned (rules : Rules) (g : Grammar) (text : Text) (j : Journal) :
    ∃ k, ∀ t l, g.meaning rules (State.initial text) k = .returned t l →
      ∃ m n, ∀ fuel, n ≤ fuel → g.run rules fuel text j = .returned t m := by
  obtain ⟨k, hopen⟩ := Run.exists_debugLine
    (g.name ++ " start: " ++ toString text.size ++ " characters of input") j
  refine ⟨k, fun t l ht => ?_⟩
  obtain ⟨m, hclose⟩ := Run.exists_debugLine (run.closingLine g t) l
  obtain ⟨n, hn⟩ := parser_settles rules g (State.initial text) k
  refine ⟨m, n, fun fuel hfuel => ?_⟩
  rw [run, Run.bind_returned hopen, Run.bind_returned ((hn fuel hfuel).trans ht),
    Run.bind_returned hclose]
  rfl

end Descent
