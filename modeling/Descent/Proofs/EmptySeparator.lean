/-
  Descent/Proofs/EmptySeparator.lean
  ==================================
  **A separator that reads nothing separates nothing.**

  `many` and `sepBy` are two loops, and they ask for progress in different places: `many`
  compares where an occurrence ends with where it began, `sepBy` compares where the
  separator behind it ends with that.  They keep different states as the last good one,
  too.  With a separator that succeeds on the spot the two come to the same: they make
  the same rounds and stop at the same state (`Grammar.sepBy_succeed_agrees_with_many`),
  whether occurrences consume anything or not.

  The separator does leave something behind, its value, and the next occurrence starts
  from a state with that value as its result.  So the two loops are compared as
  evaluations from states that differ in the result (`Coupling.stale`), and what is
  repeated must not read it.
-/
import Descent.Proofs.StaleResult

namespace Descent

namespace Parser

variable {p : Parser} {s t : State} {results : List Value}

/-! ### The round of a loop with such a separator -/

/-- Behind an occurrence the separator stands where the occurrence ended, so the two
    progress tests are one. -/
theorem succeed_behind (ht : t.isError = false) (v : Value) (harvest : Harvest)
    (next : State → Run Harvest) :
    (do
      let behind ← succeed v t
      if behind.isError || behind.cursor == s.cursor then pure harvest else next behind)
      = if t.cursor = s.cursor then pure harvest else next (t.withResult v) := by
  have hstops : ((t.withResult v).isError || (t.withResult v).cursor == s.cursor) = true
      ↔ t.cursor = s.cursor := by
    simp [State.withResult, ht]
  rw [succeed, ht, if_neg Bool.false_ne_true, pure_bind]
  by_cases hstays : t.cursor = s.cursor
  · rw [if_pos hstays, if_pos (hstops.mpr hstays)]
  · rw [if_neg hstays, if_neg fun h => hstays (hstops.mp h)]

theorem collectSeparated_succeed (v : Value) (fuel : Nat) :
    collectSeparated (succeed v) p (fuel + 1) results s
      = round p (fun results t => collectSeparated (succeed v) p fuel results (t.withResult v))
          results s := by
  rw [collectSeparated]
  refine bind_congr fun t => ite_congr rfl (fun _ => rfl) fun hgoes => ?_
  exact succeed_behind (by simpa using hgoes) v _ _

theorem gatherSeparated_succeed (v : Value) :
    gatherSeparated (succeed v) p results s
      = round p (fun results t => gatherSeparated (succeed v) p results (t.withResult v))
          results s := by
  rw [gatherSeparated_eq]
  refine bind_congr fun t => ite_congr rfl (fun _ => rfl) fun hgoes => ?_
  exact succeed_behind (by simpa using hgoes) v _ _

end Parser

namespace Coupling

open Descent.Parser

variable {p q : Parser} {s t : State}

theorem stale_before_withResult (h : stale.before s t) (v : Value) :
    stale.before s (t.withResult v) :=
  ⟨⟨h.1.input, h.1.cursor, h.1.isError, h.1.error⟩, h.2⟩

theorem stale_withResult_before (h : stale.before s t) (v : Value) :
    stale.before (s.withResult v) t :=
  ⟨⟨h.1.input, h.1.cursor, h.1.isError, h.1.error⟩, h.2⟩

/-! ### All rounds -/

/-- **The loop with the separator makes the rounds of the loop without.** -/
theorem stale_mirrors_gather_separated (h : stale.Mirrors p q) (v : Value)
    (results : List Value) (hst : stale.before s t) :
    Run.Mirrors stale.journals stale.SameHarvest (gather p results s)
      (gatherSeparated (succeed v) q results t) := by
  refine .limit fun fuel => ?_
  induction fuel generalizing results s t with
  | zero => exact .exhausted _
  | succ fuel ih =>
    rw [collect_eq_round, gatherSeparated_succeed]
    exact stale.mirrors_round h hst
      (fun results _ _ hbefore => ih results (stale_before_withResult hbefore v)) results

/-- **The loop without a separator makes the rounds of the loop with one.** -/
theorem stale_mirrors_separated_gather (h : stale.Mirrors p q) (v : Value)
    (results : List Value) (hst : stale.before s t) :
    Run.Mirrors stale.journals stale.SameHarvest (gatherSeparated (succeed v) p results s)
      (gather q results t) := by
  refine .limit fun fuel => ?_
  induction fuel generalizing results s t with
  | zero => exact .exhausted _
  | succ fuel ih =>
    rw [collectSeparated_succeed, gather_eq_round]
    exact stale.mirrors_round h hst
      (fun results _ _ hbefore => ih results (stale_withResult_before hbefore v)) results

theorem paired_separated_gather (h : stale.Mirrors p p) (v : Value) (hs : s.isError = false)
    (j : Journal) :
    (gatherSeparated (succeed v) p [] s j).Paired stale.journals stale.SameHarvest
      (gather p [] s j) := by
  have hbefore : stale.before s s := ⟨.refl s, hs⟩
  exact (stale_mirrors_separated_gather h v [] hbefore j j rfl).paired
    (stale_mirrors_gather_separated h v [] hbefore j j rfl)

end Coupling

/-- How two loops that need one occurrence end, from `s` on: with `s` if that has failed;
    else in one and the same state that has not failed, or both failed, where they started
    and for want of an occurrence, each in words of its own. -/
def State.SameOrBothEmpty (s t u : State) : Prop :=
  (s.isError = true ∧ t = s ∧ u = s) ∨
    (s.isError = false ∧ t.isError = false ∧ t = u) ∨
    (s.isError = false ∧ ∃ message message',
      t = s.fail .repetitionEmpty message ∧ u = s.fail .repetitionEmpty message')

namespace Grammar

open Coupling (stale)

variable {rules : Rules} {p : Grammar} {s : State}

theorem paired_sepBy_many (hp : Throughout rules Oblivious p) (v : Value) (s : State)
    (j : Journal) :
    ((sepBy (.succeed v) p).meaning rules s j).Paired stale.journals Eq
      ((many p).meaning rules s j) := by
  have hmirrors := meaning_mirrors_of_throughout (fun _ => Oblivious.mirroredAt) hp
  rw [meaning_sepBy, meaning_succeed, meaning_many, Parser.separated, Parser.repeated]
  cases hs : s.isError with
  | true => exact ⟨rfl, rfl⟩
  | false =>
    refine Run.paired_bind (Coupling.paired_separated_gather hmirrors v hs j) (fun _ _ h => h) ?_
    rintro a b k l ⟨hresults, hstate⟩ hkl
    refine ⟨?_, hkl⟩
    rw [hresults, hstate.1.withResult_eq]

theorem paired_sepBy1_many1 (hp : Throughout rules Oblivious p) (v : Value) (s : State)
    (j : Journal) :
    ((sepBy1 (.succeed v) p).meaning rules s j).Paired stale.journals s.SameOrBothEmpty
      ((many1 p).meaning rules s j) := by
  have hmirrors := meaning_mirrors_of_throughout (fun _ => Oblivious.mirroredAt) hp
  rw [meaning_sepBy1, meaning_succeed, meaning_many1, Parser.separated1, Parser.repeated1]
  cases hs : s.isError with
  | true => exact ⟨.inl ⟨hs, rfl, rfl⟩, rfl⟩
  | false =>
    refine Run.paired_bind (Coupling.paired_separated_gather hmirrors v hs j) (fun _ _ h => h) ?_
    rintro a b k l ⟨hresults, hstate⟩ hkl
    rw [hresults]
    cases hempty : b.results.isEmpty with
    | true => exact ⟨.inr (.inr ⟨hs, _, _, rfl, rfl⟩), hkl⟩
    | false =>
      have hok : a.state.isError = false := hstate.2
      refine ⟨.inr (.inl ⟨hs, hok, ?_⟩), hkl⟩
      rw [hstate.1.withResult_eq]

/-- **A separator that reads nothing separates nothing.**  For every grammar in which
    nothing reads the result, every value of the separator and every state: `sepBy` and
    `many` end the same way, with the same state or the same fault, or neither ends.
    `sepBy1` and `many1` leave a failed state as it is; from any other state they end in
    the same state that has not failed, or both fail where they started, for want of an
    occurrence.  The same calls are recorded. -/
theorem sepBy_succeed_agrees_with_many (hp : Throughout rules Oblivious p) (v : Value) (s : State)
    (j : Journal) :
    (∃ n, ∀ fuel, n ≤ fuel → ((sepBy (.succeed v) p).parser rules fuel s j).Paired
      (fun j k => j.calls = k.calls) Eq ((many p).parser rules fuel s j)) ∧
    ∃ n, ∀ fuel, n ≤ fuel → ((sepBy1 (.succeed v) p).parser rules fuel s j).Paired
      (fun j k => j.calls = k.calls) s.SameOrBothEmpty ((many1 p).parser rules fuel s j) := by
  constructor
  · exact exists_fuel_of_meaning (paired_sepBy_many hp v s j)
  · exact exists_fuel_of_meaning (paired_sepBy1_many1 hp v s j)

/-! ### Fields with nothing between them -/

theorem field_oblivious : Throughout fields Oblivious (ref "field") :=
  .of_everywhere fields_oblivious (by simp [ref, Oblivious])

/-- At the end there is still a field, on the spot, and it is the last one for both. -/
theorem fields_sepBy_agrees_with_many :
    Throughout fields Oblivious (ref "field") ∧
      (∃ n, ∀ fuel, n ≤ fuel →
        ((sepBy (.succeed (.str "stale")) (ref "field")).parser fields fuel
            (State.initial (Text.ofString "12")) {}).Paired (fun j k => j.calls = k.calls) Eq
          ((many (ref "field")).parser fields fuel (State.initial (Text.ofString "12")) {})) ∧
      (∃ n, ∀ fuel, n ≤ fuel →
        ((sepBy1 (.succeed (.str "stale")) (ref "field")).parser fields fuel
            (State.initial (Text.ofString "12")) {}).Paired (fun j k => j.calls = k.calls)
          (State.initial (Text.ofString "12")).SameOrBothEmpty
          ((many1 (ref "field")).parser fields fuel (State.initial (Text.ofString "12")) {})) ∧
      (many (ref "field")).parser fields 8 (State.initial (Text.ofString "12")) {}
        = .returned { input := Text.ofString "12", cursor := 2,
                      result := .list [.str "12", .list []] } {} := by
  obtain ⟨hmany, hmany1⟩ := sepBy_succeed_agrees_with_many field_oblivious (.str "stale")
    (State.initial (Text.ofString "12")) {}
  exact ⟨field_oblivious, hmany, hmany1, rfl⟩

/-- A state that has failed before keeps its error: neither loop says then that an
    occurrence is missing. -/
theorem failed_state_keeps_kind : ∃ t u : State,
    (sepBy1 (.succeed (.int 1)) digits).parser [] 2
        ((State.initial (Text.ofString "7")).fail .message "too cheap") {} = .returned t {} ∧
      (many1 digits).parser [] 2
        ((State.initial (Text.ofString "7")).fail .message "too cheap") {} = .returned u {} ∧
      ¬((t.isError = false ∧ u.isError = false ∧ t = u) ∨
        (t.isError = true ∧ u.isError = true ∧ t.cursor = u.cursor ∧
          t.error.map (·.kind) = some .repetitionEmpty ∧
          u.error.map (·.kind) = some .repetitionEmpty ∧
          t.error.map (·.position) = u.error.map (·.position))) := by
  refine ⟨_, _, rfl, rfl, ?_⟩
  simp [State.fail, State.withError]

end Grammar

end Descent
