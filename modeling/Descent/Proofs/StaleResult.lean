/-
  Descent/Proofs/StaleResult.lean
  ===============================
  **The result that a parser finds is never read.**

  The result of a state is what the parser before has left there.  Every parser of the
  library that succeeds writes a result of its own, also where it has nothing to read:
  an empty sequence, a loop without a round, a choice that falls back.  So two states
  that differ in their result only are as good as one another
  (`Grammar.result_never_read`).  A `trace` is the exception: it succeeds and leaves the
  result as it is.

  A parser that fails leaves the result alone as well, but then nobody reads it.
-/
import Descent.Grammar.Probe
import Descent.Proofs.Rewriting

namespace Descent

namespace State

/-- The states agree in all fields but the result. -/
structure SameButResult (s t : State) : Prop where
  input : s.input = t.input
  cursor : s.cursor = t.cursor
  isError : s.isError = t.isError
  error : s.error = t.error

namespace SameButResult

variable {s t : State}

theorem refl (s : State) : s.SameButResult s := ⟨rfl, rfl, rfl, rfl⟩

theorem symm (h : s.SameButResult t) : t.SameButResult s :=
  ⟨h.input.symm, h.cursor.symm, h.isError.symm, h.error.symm⟩

theorem eq_of_result (h : s.SameButResult t) (hresult : s.result = t.result) : s = t := by
  obtain ⟨hinput, hcursor, hisError, herror⟩ := h
  cases s
  cases t
  simp_all

theorem ahead_eq (h : s.SameButResult t) : s.ahead = t.ahead := by
  rw [ahead, ahead, h.input, h.cursor]

theorem withResult_eq (h : s.SameButResult t) (v : Value) : s.withResult v = t.withResult v :=
  eq_of_result ⟨h.input, h.cursor, h.isError, h.error⟩ rfl

theorem advance_eq (h : s.SameButResult t) (cursor : Nat) (v : Value) :
    s.advance cursor v = t.advance cursor v :=
  eq_of_result ⟨h.input, rfl, h.isError, h.error⟩ rfl

theorem fail (h : s.SameButResult t) (kind : ErrorKind) (message : String) :
    (s.fail kind message).SameButResult (t.fail kind message) := by
  refine ⟨h.input, h.cursor, rfl, ?_⟩
  simp only [State.fail, State.withError, h.cursor]

end SameButResult

/-- The states agree in all fields, except that a failed one may have any result. -/
def SameUnlessFailed (s t : State) : Prop :=
  s.SameButResult t ∧ (s.isError = false → s = t)

theorem sameUnlessFailed_refl (s : State) : s.SameUnlessFailed s := ⟨.refl s, fun _ => rfl⟩

end State

namespace Coupling

/-- Evaluations from states that differ in the result at most. -/
def stale : Coupling where
  journals j k := j.calls = k.calls
  before s t := s.SameButResult t ∧ s.isError = false
  after := State.SameUnlessFailed
  perform h e := Journal.calls_perform h e
  writeLeft h _ := h
  writeRight h _ := h
  before_ok h := ⟨h.2, h.1.isError ▸ h.2⟩
  cursor_iff h h' := by rw [h.1.cursor, h'.1.cursor]
  withResult h v := by
    rw [h.1.withResult_eq v]
    exact State.sameUnlessFailed_refl _
  fail {s t} h kind message := by
    rw [h.1.cursor]
    exact ⟨h.1.fail kind _, nofun⟩
  isError_eq h := h.1.isError
  result_eq h ok := by rw [h.2 ok]
  goesOn h ok := ⟨h.1, ok⟩

theorem stale_seesAhead : stale.SeesAhead where
  ahead_eq h := h.1.ahead_eq
  advance {s t} h n v := by
    rw [h.1.cursor, h.1.advance_eq]
    exact State.sameUnlessFailed_refl _

theorem stale_mirrors_errorMap (handler : ParseError → Nat → Response Revision) {p q : Parser}
    (h : stale.Mirrors p q) :
    stale.Mirrors (p.errorMap fun e cursor => (handler e cursor).run)
      (q.errorMap fun e cursor => (handler e cursor).run) := by
  refine stale.mirrors_errorMap handler h (fun s t hst => ?_) fun s t e hst => ?_
  · exact ⟨hst.1.error, hst.1.cursor⟩
  · exact ⟨⟨hst.1.input, hst.1.cursor, rfl, rfl⟩, nofun⟩

end Coupling

namespace Grammar

/-- The step makes the same of states that differ in the result. -/
def IgnoresResult (step : State → Response State) : Prop :=
  ∀ s t, s.SameButResult t → s.isError = false →
    (step s).Related State.SameUnlessFailed (step t)

theorem ignoresResult_probe (p : Probe) : IgnoresResult fun s => pure (p.step s) := by
  intro s t h hs
  have ht : t.isError = false := h.isError ▸ hs
  refine ⟨rfl, ?_⟩
  change (p.step s).SameUnlessFailed (p.step t)
  cases p with
  | anyChar =>
    simp only [Probe.step, Probe.anyCharStep, hs, ht, Bool.false_eq_true, if_false, h.input,
      h.cursor]
    cases t.input.get? t.cursor with
    | none => exact ⟨h.fail _ _, nofun⟩
    | some c =>
      simp only [h.advance_eq]
      exact State.sameUnlessFailed_refl _
  | seek distance =>
    simp only [Probe.step, Probe.seekStep, hs, ht, Bool.false_eq_true, if_false, h.input,
      h.cursor, h.advance_eq]
    exact State.sameUnlessFailed_refl _
  | recover =>
    have heq : Probe.recover.step s = Probe.recover.step t :=
      State.SameButResult.eq_of_result ⟨h.input, h.cursor, rfl, rfl⟩ rfl
    rw [heq]
    exact State.sameUnlessFailed_refl _
  | failMove distance =>
    simp only [Probe.step, hs, ht, Bool.false_eq_true, if_false, h.cursor]
    exact ⟨⟨h.input, rfl, rfl, (h.fail _ _).error⟩, nofun⟩

/-- The node is no `trace`, and if it is a user-written step, it ignores the result. -/
def Oblivious : Grammar → Prop
  | .trace _ => False
  | .custom _ step => IgnoresResult step
  | _ => True

theorem Oblivious.mirroredAt {node : Grammar} (h : node.Oblivious) :
    node.MirroredAt Coupling.stale := by
  cases node with
  | custom name step =>
    intro s t hst
    exact Coupling.stale.mirrors_related (h s t hst.1 hst.2)
  | literal text => exact Coupling.stale_seesAhead.mirrors_literal text
  | regex name pattern =>
    refine Coupling.stale_seesAhead.mirrors_regex name ?_
    apply Coupling.sameMatches_of_eq
    exact fun s t hst => ⟨hst.1.input, hst.1.cursor⟩
  | endOfInput => exact Coupling.stale_seesAhead.mirrors_endOfInput
  | trace label => exact h.elim
  | errorMap body handler => exact fun p q => Coupling.stale_mirrors_errorMap handler
  | _ => exact True.intro

variable {rules : Rules} {g : Grammar}

/-- **The incoming result is never read.**  Applied to two states that differ in the result
    at most, and have not failed, a grammar without `trace`, also in its rules, gives
    states that agree in whether they have failed, in the cursor and in the error; if
    they have not failed, they are one and the same state. -/
theorem result_never_read (hrules : rules.Everywhere Oblivious) (hg : Everywhere Oblivious g)
    {s t : State} (hst : s.SameButResult t) (hs : s.isError = false) {j k : Journal}
    (hjk : j.calls = k.calls) :
    ∃ n, ∀ fuel, n ≤ fuel → (g.parser rules fuel s j).Paired (fun j k => j.calls = k.calls)
      State.SameUnlessFailed (g.parser rules fuel t k) := by
  have hmirrors : ∀ fuel, Coupling.stale.Mirrors (g.parser rules fuel) (g.meaning rules) :=
    parser_mirrors_meaning_of (fun _ => Oblivious.mirroredAt) hrules hg
  have ht : t.isError = false := hst.isError ▸ hs
  exact exists_fuel_paired hmirrors hmirrors ⟨hst, hs⟩ ⟨hst.symm, ht⟩ hjk hjk.symm

/-! ### A table of parsers that succeed on nothing -/

/-- A field is a number, or nothing at all. -/
def fields : Rules := [("field", .choice [digits, .sequence []])]

/-- Fields behind blanks, up to the end, and a step that succeeds whatever is there. -/
def fieldList : Grammar :=
  .sequence [.many (.literal " "), .sepBy (.literal ",") (ref "field"),
    .chain (.many letters) pure fun
      | .list [] => .endOfInput
      | _ => .fail "letters behind the fields",
    Probe.recover.grammar]

theorem fields_oblivious : fields.Everywhere Oblivious := by
  apply Rules.everywhere_of_mem
  simp [fields, digits, Oblivious]

theorem fieldList_oblivious : Everywhere Oblivious fieldList := by
  simp only [fieldList, ref, letters, Probe.grammar, everywhere_sequence, List.forall_mem_cons,
    everywhere_many, everywhere_literal, everywhere_sepBy, everywhere_lazy, everywhere_rule,
    everywhere_chain, everywhere_regex, everywhere_custom, Oblivious, true_and, and_true]
  refine ⟨fun v => ?_, ignoresResult_probe .recover, List.forall_mem_nil _⟩
  split <;> simp [Oblivious]

/-- Nothing is read and nothing is left of the stale result. -/
theorem fieldList_result_never_read :
    fields.Everywhere Oblivious ∧ Everywhere Oblivious fieldList ∧
      (State.initial (Text.ofString "")).SameButResult
        { input := Text.ofString "", result := .str "stale" } ∧
      ∃ n, ∀ fuel, n ≤ fuel →
        (fieldList.parser fields fuel (State.initial (Text.ofString "")) {}).Paired
          (fun j k => j.calls = k.calls) State.SameUnlessFailed
          (fieldList.parser fields fuel { input := Text.ofString "", result := .str "stale" }
            { debug := true }) := by
  have hst : (State.initial (Text.ofString "")).SameButResult
      { input := Text.ofString "", result := .str "stale" } := ⟨rfl, rfl, rfl, rfl⟩
  exact ⟨fields_oblivious, fieldList_oblivious, hst,
    result_never_read fields_oblivious fieldList_oblivious hst rfl rfl⟩

end Grammar

end Descent
