/-
  Descent/Proofs/Rounds.lean
  ==========================
  **How many rounds a loop makes.**

  A parser is steady if it always returns, and if no success of it moves the cursor back
  or out of the text.  It need not read anything.  A loop over steady parsers goes on
  only from behind the place where its last round began, so it makes no more rounds than
  it has moved the cursor, and one (`Parser.collect_returns`,
  `Parser.collectSeparated_returns`).

  A round keeps one result at most, and applies each parser once at most.  How often a
  parser has been applied is not to be seen in the state that a loop ends with.  So the
  parser is given a mark (`Grammar.marked`), which records a call and does nothing else.
  The loop then takes the same turns, and the calls that it records more than before are
  the applications of the parser.
-/
import Descent.Proofs.Halting
import Descent.Proofs.Rewriting

namespace Descent

/-- From `s` on, `t` is a state that a loop may end in: it has not failed, it stands no
    further back, and its result is a list of no more values than the cursor has moved
    places, and one. -/
structure State.Gathered (s t : State) : Prop where
  ok : t.isError = false
  le : s.cursor ≤ t.cursor
  results : ∃ items, t.result = .list items ∧ items.length ≤ t.cursor - s.cursor + 1

namespace Parser

/-- Applied to a state that has not failed the parser returns a state; if that is a
    success, it stands in the same text, not before the place where the parser was
    applied and not behind the text. -/
def Steady (p : Parser) : Prop :=
  ∀ s : State, s.isError = false → ∀ j, ∃ t k, p s j = .returned t k ∧
    (t.isError = false →
      t.input = s.input ∧ s.cursor ≤ t.cursor ∧ t.cursor ≤ max s.cursor s.input.size)

/-- `q` returns what `p` returns, and records `extra` calls more each time; what has been
    recorded before makes no difference. -/
def RecordsMore (extra : Nat) (p q : Parser) : Prop :=
  ∀ s : State, s.isError = false → ∀ j j' n t k, j'.calls.size = j.calls.size + n →
    p s j = .returned t k →
      ∃ k', q s j' = .returned t k' ∧ k'.calls.size = k.calls.size + n + extra

variable {p q p' q' : Parser} {s : State} {results : List Value} {harvest : Harvest}
  {j j' k : Journal}

/-! ### Rounds and progress -/

/-- **As many rounds as the cursor has moved, and one, are enough.** -/
theorem collect_returns (hp : p.Steady) (hs : s.isError = false) (results : List Value)
    (j : Journal) :
    ∃ harvest k, harvest.state.isError = false ∧ s.cursor ≤ harvest.state.cursor ∧
      collect p (harvest.state.cursor - s.cursor + 1) results s j = .returned harvest k := by
  induction hleft : s.remaining using Nat.strongRecOn generalizing s results j with
  | ind left ih =>
    obtain ⟨t, k, h, hsteady⟩ := hp s hs j
    cases ht : t.isError with
    | true => exact ⟨_, k, hs, Nat.le_refl _, round_failed h ht⟩
    | false =>
      obtain ⟨hinput, hle, hbound⟩ := hsteady ht
      by_cases hstays : t.cursor = s.cursor
      · exact ⟨_, k, ht, hle, round_last h ht hstays⟩
      · have hless : t.remaining < left := by
          rw [← hleft, State.remaining, State.remaining, hinput]
          omega
        obtain ⟨harvest, l, hok, hle', hrest⟩ := ih _ hless ht (t.result :: results) k rfl
        refine ⟨harvest, l, hok, Nat.le_trans hle hle', ?_⟩
        -- The round has moved the cursor, and that is what it costs.
        have henough : harvest.state.cursor - t.cursor + 1 ≤ harvest.state.cursor - s.cursor := by
          omega
        rw [collect_eq_round, round_ok h ht hstays]
        exact ((collect_rising p _ t).extends_of_le henough).returned hrest

/-- As `collect_returns`, for values with a separator between them. -/
theorem collectSeparated_returns (hp : p.Steady) (hq : q.Steady) (hs : s.isError = false)
    (results : List Value) (j : Journal) :
    ∃ harvest k, harvest.state.isError = false ∧ s.cursor ≤ harvest.state.cursor ∧
      collectSeparated p q (harvest.state.cursor - s.cursor + 1) results s j
        = .returned harvest k := by
  induction hleft : s.remaining using Nat.strongRecOn generalizing s results j with
  | ind left ih =>
    obtain ⟨t, k, h, hfound⟩ := hq s hs j
    cases ht : t.isError with
    | true => exact ⟨_, k, hs, Nat.le_refl _, separatedRound_failed h ht⟩
    | false =>
      obtain ⟨hinput, hle, hbound⟩ := hfound ht
      obtain ⟨u, l, hsep, hbehind⟩ := hp t ht k
      by_cases hstops : (u.isError || u.cursor == s.cursor) = true
      · exact ⟨_, l, ht, hle, separatedRound_last h ht hsep hstops⟩
      · simp only [Bool.or_eq_true, beq_iff_eq, not_or, Bool.not_eq_true] at hstops
        obtain ⟨hu, hmoved⟩ := hstops
        obtain ⟨hinput', hle', hbound'⟩ := hbehind hu
        have hless : u.remaining < left := by
          rw [hinput] at hbound'
          rw [← hleft, State.remaining, State.remaining, hinput', hinput]
          omega
        obtain ⟨harvest, m, hok, hle'', hrest⟩ := ih _ hless hu (t.result :: results) l rfl
        refine ⟨harvest, m, hok, by omega, ?_⟩
        have henough : harvest.state.cursor - u.cursor + 1 ≤ harvest.state.cursor - s.cursor := by
          omega
        rw [collectSeparated_eq_round, separatedRound_ok h ht hsep hu hmoved]
        exact ((collectSeparated_rising p q _ u).extends_of_le henough).returned hrest

/-! ### What a round adds -/

/-- A round keeps one result at most. -/
theorem ensures_collect_length (p : Parser) (rounds : Nat) (results : List Value) (s : State) :
    (collect p rounds results s).Ensures fun harvest =>
      harvest.results.length ≤ results.length + rounds := by
  induction rounds generalizing results s with
  | zero => exact .exhausted
  | succ rounds ih =>
    refine .bind (.trivial _) fun t _ => .ite (fun _ => .pure (by simp)) fun _ => ?_
    refine .ite (fun _ => .pure (by simp)) fun _ => (ih (t.result :: results) t).mono ?_
    intro harvest h
    simp only [List.length_cons] at h
    omega

theorem ensures_collectSeparated_length (p q : Parser) (rounds : Nat) (results : List Value)
    (s : State) :
    (collectSeparated p q rounds results s).Ensures fun harvest =>
      harvest.results.length ≤ results.length + rounds := by
  induction rounds generalizing results s with
  | zero => exact .exhausted
  | succ rounds ih =>
    refine .bind (.trivial _) fun t _ => .ite (fun _ => .pure (by simp)) fun _ => ?_
    refine .bind (.trivial _) fun u _ => .ite (fun _ => .pure (by simp)) fun _ => ?_
    refine (ih (t.result :: results) u).mono fun harvest h => ?_
    simp only [List.length_cons] at h
    omega

/-- A round applies the parser once. -/
theorem collect_recordsMore {extra rounds n : Nat} (hpp' : RecordsMore extra p p')
    (hs : s.isError = false) (hj : j'.calls.size = j.calls.size + n)
    (h : collect p rounds results s j = .returned harvest k) :
    ∃ k', collect p' rounds results s j' = .returned harvest k' ∧
      k'.calls.size ≤ k.calls.size + n + extra * rounds := by
  induction rounds generalizing results s j j' n with
  | zero => cases h
  | succ rounds ih =>
    have hmore : extra * (rounds + 1) = extra + extra * rounds := by
      rw [Nat.mul_succ, Nat.add_comm]
    rw [collect_eq_round] at h ⊢
    obtain ⟨t, l, ht, hrest⟩ := Run.returned_of_bind h
    obtain ⟨l', ht', hl⟩ := hpp' s hs j j' n t l hj ht
    cases hok : t.isError with
    | true =>
      rw [if_pos hok] at hrest
      cases hrest
      exact ⟨l', round_failed ht' hok, by omega⟩
    | false =>
      rw [hok, if_neg Bool.false_ne_true] at hrest
      by_cases hstays : t.cursor = s.cursor
      · rw [if_pos hstays] at hrest
        cases hrest
        exact ⟨l', round_last ht' hok hstays, by omega⟩
      · rw [if_neg hstays] at hrest
        have hl' : l'.calls.size = l.calls.size + (n + extra) := by omega
        obtain ⟨k', hk', hcalls⟩ := ih hok hl' hrest
        rw [round_ok ht' hok hstays]
        exact ⟨k', hk', by omega⟩

/-- A round applies the value once, and the separator once at most. -/
theorem collectSeparated_recordsMore {extra extra' rounds n : Nat}
    (hpp' : RecordsMore extra p p') (hqq' : RecordsMore extra' q q') (hs : s.isError = false)
    (hj : j'.calls.size = j.calls.size + n)
    (h : collectSeparated p q rounds results s j = .returned harvest k) :
    ∃ k', collectSeparated p' q' rounds results s j' = .returned harvest k' ∧
      k'.calls.size ≤ k.calls.size + n + (extra + extra') * rounds := by
  induction rounds generalizing results s j j' n with
  | zero => cases h
  | succ rounds ih =>
    have hmore : (extra + extra') * (rounds + 1) = extra + extra' + (extra + extra') * rounds := by
      rw [Nat.mul_succ, Nat.add_comm]
    rw [collectSeparated_eq_round] at h ⊢
    obtain ⟨t, l, ht, hrest⟩ := Run.returned_of_bind h
    obtain ⟨l', ht', hl⟩ := hqq' s hs j j' n t l hj ht
    cases hok : t.isError with
    | true =>
      rw [if_pos hok] at hrest
      cases hrest
      exact ⟨l', separatedRound_failed ht' hok, by omega⟩
    | false =>
      rw [hok, if_neg Bool.false_ne_true] at hrest
      obtain ⟨u, m, hu, hrest⟩ := Run.returned_of_bind hrest
      obtain ⟨m', hu', hm⟩ := hpp' t hok l l' (n + extra') u m (by omega) hu
      by_cases hstops : (u.isError || u.cursor == s.cursor) = true
      · rw [if_pos hstops] at hrest
        cases hrest
        exact ⟨m', separatedRound_last ht' hok hu' hstops, by omega⟩
      · rw [if_neg hstops] at hrest
        simp only [Bool.or_eq_true, beq_iff_eq, not_or, Bool.not_eq_true] at hstops
        obtain ⟨hok', hmoved⟩ := hstops
        have hm' : m'.calls.size = m.calls.size + (n + extra' + extra) := by omega
        obtain ⟨k', hk', hcalls⟩ := ih hok' hm' hrest
        rw [separatedRound_ok ht' hok hu' hok' hmoved]
        exact ⟨k', hk', by omega⟩

/-! ### Whole loops -/

theorem steady_of_advances (hp : Keeps State.Advances p)
    (hreturns : ∀ s : State, s.isError = false → ∀ j, ∃ t k, p s j = .returned t k) :
    p.Steady := by
  intro s hs j
  obtain ⟨t, k, h⟩ := hreturns s hs j
  have hadvances := hp s j t k h
  exact ⟨t, k, h, fun _ => ⟨hadvances.input, hadvances.le, hadvances.bound⟩⟩

theorem literal_steady (text : String) : (literal text).Steady := by
  refine steady_of_advances (literal_advances text) fun s hs j => ?_
  rw [literal, hs, if_neg Bool.false_ne_true]
  split
  · exact ⟨_, j, rfl⟩
  · split
    · exact ⟨_, j, rfl⟩
    · exact ⟨_, j, rfl⟩

theorem steady_or_succeed (hp : p.Steady) (v : Value) : (choice [p, succeed v]).Steady := by
  intro s hs j
  obtain ⟨t, k, h, hsteady⟩ := hp s hs j
  rw [choice_succeed_eq hs, Run.bind_returned h]
  by_cases hfailed : t.isError = true
  · rw [if_pos hfailed]
    exact ⟨s.withResult v, k, rfl, fun _ => ⟨rfl, Nat.le_refl _, Nat.le_max_left _ _⟩⟩
  · rw [if_neg hfailed]
    exact ⟨t, k, rfl, hsteady⟩

/-- **A loop over a steady parser ends, has not failed, and applies the parser no more
    often than it moves the cursor, and once.** -/
theorem repeated_gathers (hp : p.Steady) (hs : s.isError = false) (j : Journal) :
    ∃ t k, repeated p s j = .returned t k ∧ s.Gathered t ∧
      ∀ p' extra, RecordsMore extra p p' → ∃ k', repeated p' s j = .returned t k' ∧
        k'.calls.size ≤ k.calls.size + extra * (t.cursor - s.cursor + 1) := by
  obtain ⟨harvest, k, hok, hle, h⟩ := collect_returns hp hs [] j
  have hgather := ((collect_rising p [] s).extends_limit _).returned h
  have hlength := ensures_collect_length p _ [] s j harvest k h
  refine ⟨_, k, repeated_of_gather hs hgather, ⟨hok, hle, _, rfl, ?_⟩, ?_⟩
  · rwa [List.length_nil, Nat.zero_add] at hlength
  · intro p' extra hpp'
    have hsame : j.calls.size = j.calls.size + 0 := rfl
    obtain ⟨k', h', hcalls⟩ := collect_recordsMore hpp' hs hsame h
    have hgather' := ((collect_rising p' [] s).extends_limit _).returned h'
    exact ⟨k', repeated_of_gather hs hgather', hcalls⟩

/-- As `repeated_gathers`, for values with a separator between them. -/
theorem separated_gathers (hp : p.Steady) (hq : q.Steady) (hs : s.isError = false)
    (j : Journal) :
    ∃ t k, separated p q s j = .returned t k ∧ s.Gathered t ∧
      ∀ p' q' extra extra', RecordsMore extra p p' → RecordsMore extra' q q' →
        ∃ k', separated p' q' s j = .returned t k' ∧
          k'.calls.size ≤ k.calls.size + (extra + extra') * (t.cursor - s.cursor + 1) := by
  obtain ⟨harvest, k, hok, hle, h⟩ := collectSeparated_returns hp hq hs [] j
  have hgather := ((collectSeparated_rising p q [] s).extends_limit _).returned h
  have hlength := ensures_collectSeparated_length p q _ [] s j harvest k h
  refine ⟨_, k, separated_of_gather hs hgather, ⟨hok, hle, _, rfl, ?_⟩, ?_⟩
  · rwa [List.length_nil, Nat.zero_add] at hlength
  · intro p' q' extra extra' hpp' hqq'
    have hsame : j.calls.size = j.calls.size + 0 := rfl
    obtain ⟨k', h', hcalls⟩ := collectSeparated_recordsMore hpp' hqq' hs hsame h
    have hgather' := ((collectSeparated_rising p' q' [] s).extends_limit _).returned h'
    exact ⟨k', separated_of_gather hs hgather', hcalls⟩

end Parser

/-! ### Marks -/

/-- An effect records as many calls in one journal as in another. -/
theorem Journal.size_perform {j k : Journal} {n : Nat} (h : k.calls.size = j.calls.size + n)
    (e : Effect) : (k.perform e).calls.size = (j.perform e).calls.size + n := by
  cases e with
  | call label argument =>
    rw [perform, perform, Array.size_push, Array.size_push, h, Nat.add_right_comm]
  | setDebug on => exact h

/-- Evaluations from one and the same state, the second of which has `n` calls more in its
    journal. -/
def Coupling.lead (n : Nat) : Coupling :=
  { Coupling.identity with
    journals := fun j k => k.calls.size = j.calls.size + n
    perform := Journal.size_perform
    writeLeft := fun h _ => h
    writeRight := fun h _ => h }

namespace Grammar

/-- The grammar with a mark: a call is recorded whenever it is applied. -/
def marked (mark : String) (g : Grammar) : Grammar := .lazy (Response.call mark .null) g

variable {rules : Rules}

theorem recordsMore_self (g : Grammar) :
    Parser.RecordsMore 0 (g.meaning rules) (g.meaning rules) := by
  intro s hs j j' n t k hj h
  have hsees : (Coupling.lead n).SeesAhead :=
    ⟨Coupling.identity_seesAhead.ahead_eq, Coupling.identity_seesAhead.advance⟩
  have hself : (Coupling.lead n).Mirrors (g.meaning rules) (g.meaning rules) :=
    meaning_mirrors_of_same (Coupling.lead n) (fun _ _ h => h.1) rfl hsees g
  obtain ⟨_, k', h', rfl, hk⟩ := (hself s s ⟨rfl, hs⟩).returned hj h
  exact ⟨k', h', hk⟩

/-- A mark records one call for each application and does nothing else. -/
theorem recordsMore_marked (mark : String) (g : Grammar) :
    Parser.RecordsMore 1 (g.meaning rules) ((marked mark g).meaning rules) := by
  intro s hs j j' n t k hj h
  have hcalls : (j'.perform (.call mark .null)).calls.size = j.calls.size + (n + 1) := by
    simp only [Journal.perform, Array.size_push, hj]
    omega
  obtain ⟨k', h', hk⟩ := recordsMore_self g s hs j _ (n + 1) t k hcalls h
  refine ⟨k', ?_, by omega⟩
  rw [marked, meaning_lazy]
  exact h'

/-- **Both loops end after linearly many rounds, and neither fails.**  The parsers are
    steady: they always return, and their successes do not move back nor out of the text.
    From a state that has not failed `many` and `sepBy` end in a state that has not failed
    either; they yield no more values than the cursor has moved places, and one, and apply
    each parser no more often than that.  The applications of a parser are the calls that
    the loop records with a mark in front of it and does not record without. -/
theorem loops_end_after_linearly_many_rounds {p sep value : Grammar} {s : State}
    (hp : (p.meaning rules).Steady) (hsep : (sep.meaning rules).Steady)
    (hvalue : (value.meaning rules).Steady) (hs : s.isError = false) (mark : String)
    (j : Journal) :
    (∃ t k k', s.Gathered t ∧
      Run.SettlesOn (fun fuel => (many p).parser rules fuel s) j (.returned t k) ∧
      Run.SettlesOn (fun fuel => (many (marked mark p)).parser rules fuel s) j
        (.returned t k') ∧
      k'.calls.size ≤ k.calls.size + (t.cursor - s.cursor + 1)) ∧
    ∃ t k k' k'', s.Gathered t ∧
      Run.SettlesOn (fun fuel => (sepBy sep value).parser rules fuel s) j (.returned t k) ∧
      Run.SettlesOn (fun fuel => (sepBy sep (marked mark value)).parser rules fuel s) j
        (.returned t k') ∧
      k'.calls.size ≤ k.calls.size + (t.cursor - s.cursor + 1) ∧
      Run.SettlesOn (fun fuel => (sepBy (marked mark sep) value).parser rules fuel s) j
        (.returned t k'') ∧
      k''.calls.size ≤ k.calls.size + (t.cursor - s.cursor + 1) := by
  simp only [settlesOn_iff, meaning_many, meaning_sepBy]
  constructor
  · obtain ⟨t, k, h, hgathered, hmore⟩ := Parser.repeated_gathers hp hs j
    obtain ⟨k', h', hcalls⟩ := hmore _ 1 (recordsMore_marked mark p)
    rw [Nat.one_mul] at hcalls
    exact ⟨t, k, k', hgathered, h, h', hcalls⟩
  · obtain ⟨t, k, h, hgathered, hmore⟩ := Parser.separated_gathers hsep hvalue hs j
    obtain ⟨k', h', hcalls'⟩ :=
      hmore _ _ 0 1 (recordsMore_self sep) (recordsMore_marked mark value)
    obtain ⟨k'', h'', hcalls''⟩ :=
      hmore _ _ 1 0 (recordsMore_marked mark sep) (recordsMore_self value)
    rw [Nat.zero_add, Nat.one_mul] at hcalls'
    rw [Nat.add_zero, Nat.one_mul] at hcalls''
    exact ⟨t, k, k', k'', hgathered, h, h', hcalls', h'', hcalls''⟩

/-! ### A parser that need not read -/

/-- An `a`, or nothing. -/
def optional : Grammar := .choice [.literal "a", .succeed .null]

theorem optional_steady : (optional.meaning []).Steady := by
  have hmeaning : optional.meaning []
      = Parser.choice [Parser.literal "a", Parser.succeed .null] := by
    simp only [optional, meaning_choice, List.map, meaning_literal, meaning_succeed]
  rw [hmeaning]
  exact Parser.steady_or_succeed (Parser.literal_steady "a") .null

/-- The last round reads nothing, and the bounds are met. -/
theorem optional_loops_end :
    (optional.meaning []).Steady ∧
      (∃ t k k', (State.initial (Text.ofString "ab")).Gathered t ∧
        Run.SettlesOn (fun fuel => (many optional).parser [] fuel
          (State.initial (Text.ofString "ab"))) {} (.returned t k) ∧
        Run.SettlesOn (fun fuel => (many (marked "round" optional)).parser [] fuel
          (State.initial (Text.ofString "ab"))) {} (.returned t k') ∧
        k'.calls.size ≤ k.calls.size + (t.cursor - 0 + 1)) ∧
      (∃ t k k' k'', (State.initial (Text.ofString "ab")).Gathered t ∧
        Run.SettlesOn (fun fuel => (sepBy optional optional).parser [] fuel
          (State.initial (Text.ofString "ab"))) {} (.returned t k) ∧
        Run.SettlesOn (fun fuel => (sepBy optional (marked "round" optional)).parser [] fuel
          (State.initial (Text.ofString "ab"))) {} (.returned t k') ∧
        k'.calls.size ≤ k.calls.size + (t.cursor - 0 + 1) ∧
        Run.SettlesOn (fun fuel => (sepBy (marked "round" optional) optional).parser [] fuel
          (State.initial (Text.ofString "ab"))) {} (.returned t k'') ∧
        k''.calls.size ≤ k.calls.size + (t.cursor - 0 + 1)) ∧
      (many (marked "round" optional)).parser [] 6 (State.initial (Text.ofString "ab")) {}
        = .returned { input := Text.ofString "ab", cursor := 1, result := .list [.str "a", .null] }
            { calls := #[("round", .null), ("round", .null)] } := by
  obtain ⟨hmany, hsepBy⟩ := loops_end_after_linearly_many_rounds optional_steady optional_steady
    optional_steady (s := State.initial (Text.ofString "ab")) rfl "round" {}
  exact ⟨optional_steady, hmany, hsepBy, rfl⟩

end Grammar

end Descent
