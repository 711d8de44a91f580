/-
  Descent/Proofs/Diagnostics.lean
  ===============================
  **Diagnostics decide nothing.**

  The skeleton of a grammar is what is left of it when the words for the reader are
  taken away: messages, display names, names, log lines, and the handlers of errors
  with what they write.  Grammars that have one skeleton take the same decisions
  (`Grammar.diagnostics_decide_nothing`): they fail on the same texts, stop at the
  same place and have the same results.

  What has to be true for that is that an error is no more than a comment on a failure.
  So the run starts without an error, handlers of errors have to come to an answer, and
  a user-written step that succeeds leaves no error behind.
-/
import Descent.Proofs.Debugging
import Descent.Proofs.Reports

namespace Descent

namespace State

/-- The states agree in everything but the error, and a success has none. -/
structure SameDecision (s t : State) : Prop where
  input : s.input = t.input
  cursor : s.cursor = t.cursor
  result : s.result = t.result
  isError : s.isError = t.isError
  noError (ok : s.isError = false) : s.error = none ∧ t.error = none

namespace SameDecision

variable {s t u : State}

theorem trans (h : s.SameDecision t) (h' : t.SameDecision u) : s.SameDecision u where
  input := h.input.trans h'.input
  cursor := h.cursor.trans h'.cursor
  result := h.result.trans h'.result
  isError := h.isError.trans h'.isError
  noError ok := ⟨(h.noError ok).1, (h'.noError (h.isError ▸ ok)).2⟩

theorem of_clean (h : s.Clean) : s.SameDecision s where
  input := rfl
  cursor := rfl
  result := rfl
  isError := rfl
  noError _ := ⟨h.noError, h.noError⟩

theorem eq_of_ok (h : s.SameDecision t) (ok : s.isError = false) : s = t := by
  obtain ⟨hs, ht⟩ := h.noError ok
  obtain ⟨hinput, hcursor, hresult, hisError, -⟩ := h
  cases s
  cases t
  simp_all

/-- Failures at one place, with whatever errors. -/
theorem withError (h : s.SameDecision t) (e e' : Option ParseError) :
    (s.withError e).SameDecision (t.withError e') where
  input := h.input
  cursor := h.cursor
  result := h.result
  isError := rfl
  noError := nofun

theorem withError_left {e : ParseError} (h : s.SameDecision t) (hs : s.error = some e)
    (e' : Option ParseError) : (s.withError e').SameDecision t where
  input := h.input
  cursor := h.cursor
  result := h.result
  isError := by
    cases hok : s.isError with
    | true => rw [← h.isError, hok]; rfl
    | false =>
      rw [(h.noError hok).1] at hs
      cases hs
  noError := nofun

theorem withError_right {e : ParseError} (h : s.SameDecision t) (ht : t.error = some e)
    (e' : Option ParseError) : s.SameDecision (t.withError e') where
  input := h.input
  cursor := h.cursor
  result := h.result
  isError := by
    cases hok : s.isError with
    | true => rfl
    | false =>
      rw [(h.noError hok).2] at ht
      cases ht
  noError ok := by
    rw [(h.noError ok).2] at ht
    cases ht

end SameDecision

end State

theorem Response.run_of_ok {α : Type} {r : Response α} {a : α} (h : r.outcome = .ok a)
    (j : Journal) : r.run j = .returned a (j.performAll r.effects) := by
  rw [run, h]

namespace Coupling

/-- Evaluations from one and the same clean state, whatever is recorded and logged. -/
def decisions : Coupling where
  journals _ _ := True
  before s t := s = t ∧ s.Clean
  after := State.SameDecision
  perform _ _ := True.intro
  writeLeft _ _ := True.intro
  writeRight _ _ := True.intro
  before_ok {s t} h := by
    obtain ⟨rfl, hs⟩ := h
    exact ⟨hs.ok, hs.ok⟩
  cursor_iff {s t s' t'} h h' := by
    obtain ⟨rfl, -⟩ := h
    obtain ⟨rfl, -⟩ := h'
    rfl
  withResult {s t} h v := by
    obtain ⟨rfl, hs⟩ := h
    exact .of_clean ⟨hs.ok, hs.noError⟩
  fail {s t} h kind message := by
    obtain ⟨rfl, hs⟩ := h
    exact (State.SameDecision.of_clean hs).withError _ _
  isError_eq h := h.isError
  result_eq h _ := h.result
  goesOn h ok := ⟨h.eq_of_ok ok, ok, (h.noError ok).1⟩

theorem decisions_seesAhead : decisions.SeesAhead where
  ahead_eq h := by rw [h.1]
  advance {s t} h n v := by
    obtain ⟨rfl, hs⟩ := h
    exact .of_clean ⟨hs.ok, hs.noError⟩

theorem decisions_sameMatches (pattern : Pattern) : decisions.SameMatches pattern := by
  apply sameMatches_of_eq
  rintro s t ⟨rfl, -⟩
  exact ⟨rfl, rfl⟩

/-- Failures of whatever kind and in whatever words are the same decision. -/
theorem decisions_fail {s t : State} (h : decisions.before s t) (e e' : Option ParseError) :
    decisions.after (s.withError e) (t.withError e') := by
  obtain ⟨rfl, hs⟩ := h
  exact (State.SameDecision.of_clean hs).withError e e'

theorem decisions_mirrors_fail (message message' : String) :
    decisions.Mirrors (Parser.fail message) (Parser.fail message') :=
  decisions.mirrors_fail message message' fun _ _ h => decisions_fail h _ _

theorem decisions_mirrors_regex (name name' : String) (pattern : Pattern) :
    decisions.Mirrors (Parser.regex name pattern) (Parser.regex name' pattern) :=
  decisions_seesAhead.mirrors_regex_of (decisions_sameMatches pattern)
    (fun _ _ h => decisions_fail h _ _) fun _ _ h => decisions_fail h _ _

theorem decisions_mirrors_trace (label label' : String) :
    decisions.Mirrors (Parser.trace label) (Parser.trace label') := by
  refine decisions.mirrors_trace label label' ?_
  rintro s t ⟨rfl, hs⟩
  exact .of_clean hs

section Handlers

variable {α : Type} {answer : Response α}

/-- What a function does besides answering plays no part. -/
theorem decisions_mirrors_answer_left (h : ∃ a, answer.outcome = .ok a) :
    Run.Mirrors decisions.journals (fun _ _ => True) answer.run (pure ()) := by
  intro j k _
  obtain ⟨a, ha⟩ := h
  rw [Response.run_of_ok ha]
  exact .returned True.intro True.intro

theorem decisions_mirrors_answer_right (h : ∃ a, answer.outcome = .ok a) :
    Run.Mirrors decisions.journals (fun _ _ => True) (pure ()) answer.run := by
  intro j k _
  obtain ⟨a, ha⟩ := h
  rw [Response.run_of_ok ha]
  exact .returned True.intro True.intro

variable {handler : ParseError → Nat → Response Revision} {p q : Parser}
  (hanswers : ∀ e cursor, ∃ revision, (handler e cursor).outcome = .ok revision)

include hanswers

/-- It makes no difference whether the first parser revises its errors. -/
theorem decisions_mirrors_errorMap_left (h : decisions.Mirrors p q) :
    decisions.Mirrors (p.errorMap fun e cursor => (handler e cursor).run) q := by
  intro s t hst
  rw [← bind_pure (q t)]
  refine .bind (h s t hst) fun s' t' hafter => ?_
  cases hs : s'.error with
  | none => exact .pure hafter
  | some e =>
    have hcall := decisions_mirrors_answer_left (hanswers e s'.cursor)
    exact .bind_left hcall fun _ => .pure (hafter.withError_left hs _)

theorem decisions_mirrors_errorMap_right (h : decisions.Mirrors p q) :
    decisions.Mirrors p (q.errorMap fun e cursor => (handler e cursor).run) := by
  intro s t hst
  rw [← bind_pure (p s)]
  refine .bind (h s t hst) fun s' t' hafter => ?_
  cases ht : t'.error with
  | none => exact .pure hafter
  | some e =>
    have hcall := decisions_mirrors_answer_right (hanswers e t'.cursor)
    exact .bind_right hcall fun _ => .pure (hafter.withError_right ht _)

end Handlers

theorem Mirrors.decisions_trans {p q r : Parser} (h : decisions.Mirrors p q)
    (h' : decisions.Mirrors q r) : decisions.Mirrors p r := by
  rintro s t ⟨rfl, hs⟩ j k _
  have hfirst := h s s ⟨rfl, hs⟩ j j True.intro
  have hsecond := h' s s ⟨rfl, hs⟩ j k True.intro
  exact hfirst.comp hsecond (fun _ _ _ => .trans) fun _ _ _ _ _ => True.intro

end Coupling

namespace Grammar

/-! ### Skeletons -/

/-- What is left of the node without words. -/
def strip : Grammar → Grammar
  | .fail _ => .fail ""
  | .regex _ pattern => .regex "" pattern
  | .trace _ => .trace ""
  | .errorMap body _ => body
  | g => bare g

/-- The grammar without messages, names, log lines and handlers of errors. -/
def skeleton (g : Grammar) : Grammar := g.rewrite strip

end Grammar

def Rules.skeleton (rules : Rules) : Rules := rules.rewrite Grammar.strip

namespace Grammar

/-- If the node handles errors, its handler always answers; if it is a user-written step, it
    succeeds on clean states without an error. -/
def Considerate : Grammar → Prop
  | .custom _ step => ∀ s t, s.Clean → (step s).outcome = .ok t → t.isError = false → t.error = none
  | .errorMap _ handler => ∀ e cursor, ∃ revision, (handler e cursor).outcome = .ok revision
  | _ => True

@[simp] theorem everywhere_considerate_label {body : Grammar} {expected : String} :
    Everywhere Considerate (label body expected) ↔ Everywhere Considerate body := by
  rw [label, everywhere_errorMap]
  exact and_iff_right fun e cursor => ⟨_, rfl⟩

theorem Considerate.mirroredAt {node : Grammar} (h : node.Considerate) :
    node.MirroredAt Coupling.decisions := by
  cases node with
  | custom name step =>
    rintro s t ⟨rfl, hs⟩
    refine Coupling.decisions.mirrors_related ⟨rfl, ?_⟩
    cases hstep : (step s).outcome with
    | error fault => rfl
    | ok t =>
      refine ⟨rfl, rfl, rfl, rfl, fun ok => ?_⟩
      have hnone : t.error = none := h s t hs hstep ok
      exact ⟨hnone, hnone⟩
  | literal text => exact Coupling.decisions_seesAhead.mirrors_literal text
  | regex name pattern => exact Coupling.decisions_mirrors_regex name name pattern
  | endOfInput => exact Coupling.decisions_seesAhead.mirrors_endOfInput
  | trace label => exact Coupling.decisions_mirrors_trace label label
  | errorMap body handler =>
    intro p q hpq
    have hleft := Coupling.decisions_mirrors_errorMap_left h hpq
    exact Coupling.decisions_mirrors_errorMap_right h hleft
  | _ => exact True.intro

variable {rules rules' : Rules} {g g' : Grammar}

theorem mirrors_skeleton (hrules : rules.Everywhere Considerate)
    (hg : Everywhere Considerate g) (fuel : Nat) :
    Coupling.decisions.Mirrors (g.parser rules fuel) (g.skeleton.meaning rules.skeleton) := by
  have h : Coupling.decisions.Mirrors ((g.rewrite id).parser (rules.rewrite id) fuel)
      ((g.rewrite strip).meaning (rules.rewrite strip)) := by
    refine mirrors_rewrite_of (fun _ => Considerate.mirroredAt)
      (fun fuel node hok hparts hnode => ?_) hrules hg fuel
    cases fuel with
    | zero => exact fun s t _ => .exhausted _
    | succ fuel =>
      cases node with
      | fail message =>
        simp only [mapParts, strip, id, meaning_fail]
        exact Coupling.decisions_mirrors_fail message ""
      | regex name pattern =>
        simp only [mapParts, strip, id, meaning_regex]
        exact Coupling.decisions_mirrors_regex name "" pattern
      | trace label =>
        simp only [mapParts, strip, id, meaning_trace]
        exact Coupling.decisions_mirrors_trace label ""
      | errorMap body handler =>
        have hbody := mirrors_of_succ (hparts body (.errorMap body handler))
        exact Coupling.decisions_mirrors_errorMap_left hok hbody
      | _ => exact mirrors_bare hparts hnode
  rwa [rewrite_id, rules_rewrite_id] at h

theorem skeleton_mirrors (hrules : rules.Everywhere Considerate)
    (hg : Everywhere Considerate g) (fuel : Nat) :
    Coupling.decisions.Mirrors (g.skeleton.parser rules.skeleton fuel) (g.meaning rules) := by
  have h : Coupling.decisions.Mirrors ((g.rewrite strip).parser (rules.rewrite strip) fuel)
      ((g.rewrite id).meaning (rules.rewrite id)) := by
    refine mirrors_rewrite_of (fun _ => Considerate.mirroredAt)
      (fun fuel node hok hparts hnode => ?_) hrules hg fuel
    cases fuel with
    | zero => exact fun s t _ => .exhausted _
    | succ fuel =>
      cases node with
      | fail message =>
        simp only [mapParts, strip, id, meaning_fail]
        exact Coupling.decisions_mirrors_fail "" message
      | regex name pattern =>
        simp only [mapParts, strip, id, meaning_regex]
        exact Coupling.decisions_mirrors_regex "" name pattern
      | trace label =>
        simp only [mapParts, strip, id, meaning_trace]
        exact Coupling.decisions_mirrors_trace "" label
      | errorMap body handler =>
        simp only [mapParts, strip, id, meaning_errorMap]
        have hbody := hparts body (.errorMap body handler)
        exact Coupling.decisions_mirrors_errorMap_right hok hbody
      | _ => exact bare_mirrors hparts hnode
  rwa [rewrite_id, rules_rewrite_id] at h

theorem mirrors_of_skeleton (hrules : rules.Everywhere Considerate)
    (hrules' : rules'.Everywhere Considerate) (hg : Everywhere Considerate g)
    (hg' : Everywhere Considerate g') (hshape : g.skeleton = g'.skeleton)
    (hrulesShape : rules.skeleton = rules'.skeleton) (fuel : Nat) :
    Coupling.decisions.Mirrors (g.parser rules fuel) (g'.meaning rules') := by
  refine (mirrors_skeleton hrules hg fuel).decisions_trans ?_
  rw [hshape, hrulesShape]
  exact fun s t hst => Run.Mirrors.limit fun fuel => skeleton_mirrors hrules' hg' fuel s t hst

/-- **Diagnostics decide nothing.**  Two grammars with one skeleton, under tables with one
    skeleton, end alike on every state that has not failed and holds no error: both
    return, or raise one and the same fault, or neither has an answer.  The states
    returned agree in whether they have failed, in input and cursor and in the result,
    and if they have not failed, they hold no error. -/
theorem diagnostics_decide_nothing (hrules : rules.Everywhere Considerate)
    (hrules' : rules'.Everywhere Considerate) (hg : Everywhere Considerate g)
    (hg' : Everywhere Considerate g') (hshape : g.skeleton = g'.skeleton)
    (hrulesShape : rules.skeleton = rules'.skeleton) {s : State} (hs : s.isError = false)
    (hnone : s.error = none) (j k : Journal) :
    ∃ n, ∀ fuel, n ≤ fuel → (g.parser rules fuel s j).Paired (fun _ _ => True)
      State.SameDecision (g'.parser rules' fuel s k) := by
  have hforth := mirrors_of_skeleton hrules hrules' hg hg' hshape hrulesShape
  have hback := mirrors_of_skeleton hrules' hrules hg' hg hshape.symm hrulesShape.symm
  exact exists_fuel_paired hforth hback ⟨rfl, hs, hnone⟩ ⟨rfl, hs, hnone⟩ True.intro True.intro

/-! ### A table in other words -/

/-- The table of settings with other labels and names, and with an error that says nothing
    about the place. -/
def tersely : Rules :=
  [("setting", .sequence [.regex "name" Pattern.letters, .literal "=", ref "value"]),
   ("value", .chain (.many (.literal "-")) pure fun
      | .list [] => label (.regex "" Pattern.digits) "digits"
      | _ => .errorMap digits fun _ _ =>
        pure (.error { kind := .message, message := "no number", position := 0 }))]

theorem settings_considerate : settings.Everywhere Considerate := by
  apply Rules.everywhere_of_mem
  simp [settings, letters, digits, ref, Considerate]
  intro v
  split <;> simp [Considerate]

theorem tersely_considerate : tersely.Everywhere Considerate := by
  apply Rules.everywhere_of_mem
  simp [tersely, digits, ref, Considerate]
  intro v
  split
  · simp [Considerate]
  · simp only [everywhere_errorMap, everywhere_regex, Considerate, and_true]
    exact fun e cursor => ⟨_, rfl⟩

theorem settings_skeleton : settings.skeleton = tersely.skeleton := by
  simp [Rules.skeleton, Rules.rewrite, settings, tersely, rewrite, rewriteAll, strip, bare, label,
    letters, ref]
  funext v
  split
  · rfl
  · simp [rewrite, strip, bare, digits]

/-- A number is missing, which the two tables report in different ways. -/
theorem settings_diagnostics_decide_nothing :
    settings.Everywhere Considerate ∧ tersely.Everywhere Considerate ∧
      Everywhere Considerate (sequence [ref "setting", endOfInput]) ∧
      Everywhere Considerate (label (sequence [ref "setting", endOfInput]) "one setting") ∧
      settings.skeleton = tersely.skeleton ∧
      ∃ n, ∀ fuel, n ≤ fuel →
        ((sequence [ref "setting", endOfInput]).parser settings fuel
            (State.initial (Text.ofString "x=-")) {}).Paired (fun _ _ => True) State.SameDecision
          ((label (sequence [ref "setting", endOfInput]) "one setting").parser tersely fuel
            (State.initial (Text.ofString "x=-")) { debug := true }) := by
  have hleft : Everywhere Considerate (sequence [ref "setting", endOfInput]) := by
    simp [ref, Considerate]
  have hright : Everywhere Considerate
      (label (sequence [ref "setting", endOfInput]) "one setting") := by
    simp [ref, Considerate]
  exact ⟨settings_considerate, tersely_considerate, hleft, hright, settings_skeleton,
    diagnostics_decide_nothing settings_considerate tersely_considerate hleft hright rfl
      settings_skeleton rfl rfl {} { debug := true }⟩

end Grammar

end Descent
