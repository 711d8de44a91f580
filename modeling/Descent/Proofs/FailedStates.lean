/-
  Descent/Proofs/FailedStates.lean
  ================================
  **What becomes of a state that has failed already.**

  Most nodes leave a failed state as it is.  The others hand it on to one part: a
  function, a continuation, a handler and a name to what they are put on, a deferred
  grammar to the grammar that its thunk finds.  So a failed state takes one path down
  (`Grammar.HeadPath`), on which thunks are called, and comes back up the same way,
  on which handlers revise its error, the innermost first
  (`Grammar.HeadPath.meaning_eq`).

  No function and no continuation is called on that path, or anywhere else: the state
  fares no differently if all of them raise (`Grammar.failed_state_propagated`).
-/
import Descent.Proofs.Ensures
import Descent.Proofs.Rewriting
import Descent.Proofs.Steps
import Descent.Grammar.Probe

namespace Descent

open Run (SettlesOn)

namespace Grammar

/-- What is done with an error: it is given the error and the cursor at which a parser
    ended. -/
abbrev Handler : Type := ParseError → Nat → Response Revision

/-! ### The path of a failed state -/

/-- The node looks itself whether the state has failed, or it is a user-written step. -/
def Guarded : Grammar → Prop
  | .map _ _ | .chain _ _ _ | .errorMap _ _ | .named _ _ | .lazy _ _ | .rule _ => False
  | _ => True

/-- The path that a failed state takes from a grammar down to the node where it stops,
    with the thunks that it meets, the outermost first, and the handlers of errors, the
    innermost first. -/
inductive HeadPath (rules : Rules) :
    Grammar → Grammar → List (Response Unit) → List Handler → Prop where
  | stops {g : Grammar} (h : g.Guarded) : HeadPath rules g g [] []
  | map {body stop : Grammar} {f : Value → Response Value} {touches : List (Response Unit)}
      {handlers : List Handler} (h : HeadPath rules body stop touches handlers) :
      HeadPath rules (.map body f) stop touches handlers
  | chain {body stop : Grammar} {prepare : Value → Response Value} {next : Value → Grammar}
      {touches : List (Response Unit)} {handlers : List Handler}
      (h : HeadPath rules body stop touches handlers) :
      HeadPath rules (.chain body prepare next) stop touches handlers
  | errorMap {body stop : Grammar} {handler : Handler} {touches : List (Response Unit)}
      {handlers : List Handler} (h : HeadPath rules body stop touches handlers) :
      HeadPath rules (.errorMap body handler) stop touches (handlers ++ [handler])
  | named {body stop : Grammar} {name : String} {touches : List (Response Unit)}
      {handlers : List Handler} (h : HeadPath rules body stop touches handlers) :
      HeadPath rules (.named body name) stop touches handlers
  | lazy {body stop : Grammar} {touch : Response Unit} {touches : List (Response Unit)}
      {handlers : List Handler} (h : HeadPath rules body stop touches handlers) :
      HeadPath rules (.lazy touch body) stop (touch :: touches) handlers
  | rule {name : String} {body stop : Grammar} {touches : List (Response Unit)}
      {handlers : List Handler} (hname : rules.lookup name = some body)
      (h : HeadPath rules body stop touches handlers) :
      HeadPath rules (.rule name) stop touches handlers

/-- Calls the thunks, one after the other. -/
def touchAll : List (Response Unit) → Run Unit
  | [] => pure ()
  | touch :: touches => do
    touch.run
    touchAll touches

/-- Has the error revised by the handlers, one after the other. -/
def reviseAll (handlers : List Handler) (cursor : Nat) (e : ParseError) : Run ParseError :=
  handlers.foldlM (fun e handler => do
    let r ← (handler e cursor).run
    pure (e.revise r)) e

/-- Calls the thunks, has the error revised, and puts what has become of it in the state. -/
def sweep (touches : List (Response Unit)) (handlers : List Handler) (s : State)
    (e : ParseError) : Run State := do
  touchAll touches
  let e' ← reviseAll handlers s.cursor e
  pure (s.withError (some e'))

/-- The user-written step leaves a failed state as it is. -/
def LeavesFailed (step : State → Response State) : Prop :=
  ∀ s, s.isError = true → step s = pure s

theorem leavesFailed_probe {p : Probe} (h : p ≠ .recover) :
    LeavesFailed fun s => pure (p.step s) := by
  intro s hs
  cases p with
  | recover => exact absurd rfl h
  | _ => simp [Probe.step, hs]

section Path

variable {rules : Rules} {g stop : Grammar} {touches : List (Response Unit)}
  {handlers : List Handler} {s : State} {e : ParseError}

theorem meaning_guarded (h : g.Guarded) (hstep : StepIs LeavesFailed g) (hs : s.isError = true) :
    g.meaning rules s = pure s := by
  cases g with
  | custom name step =>
    rw [meaning_custom]
    exact congrArg Response.run (hstep s hs)
  | trace label =>
    rw [meaning_trace]
    funext j
    simp [Parser.trace, Run.debugging, Run.bind_apply, hs]
  | literal _ => simp [Parser.literal, hs]
  | regex _ _ => simp [Parser.regex, hs]
  | succeed _ => simp [Parser.succeed, hs]
  | fail _ => simp [Parser.fail, hs]
  | endOfInput => simp [Parser.endOfInput, hs]
  | sequence _ => simp [Parser.sequence, hs]
  | choice _ => simp [Parser.choice, hs]
  | many _ => simp [Parser.repeated, hs]
  | many1 _ => simp [Parser.repeated1, hs]
  | sepBy _ _ => simp [Parser.separated, hs]
  | sepBy1 _ _ => simp [Parser.separated1, hs]
  | traced _ _ => simp [Parser.traced, hs]
  | _ => exact h.elim

theorem withError_self (hs : s.isError = true) (herror : s.error = some e) :
    s.withError (some e) = s := by
  rw [← herror, State.withError, ← hs]

/-- What leaves failed states as they are adds nothing. -/
theorem sweep_bind {f : State → Run State} (hf : ∀ e', f (s.withError e') = pure (s.withError e')) :
    sweep touches handlers s e >>= f = sweep touches handlers s e := by
  simp only [sweep, bind_assoc, pure_bind, hf]

theorem reviseAll_append (handler : Handler) (cursor : Nat) :
    reviseAll (handlers ++ [handler]) cursor e = (do
      let e' ← reviseAll handlers cursor e
      let r ← (handler e' cursor).run
      pure (e'.revise r)) := by
  simp only [reviseAll, List.foldlM_append, List.foldlM_cons, List.foldlM_nil, bind_pure]

/-- **What becomes of a failed state**: the thunks on its path are called, and then the
    handlers revise its error. -/
theorem HeadPath.meaning_eq (h : HeadPath rules g stop touches handlers)
    (hstop : StepIs LeavesFailed stop) (hs : s.isError = true) (herror : s.error = some e) :
    g.meaning rules s = sweep touches handlers s e := by
  induction h with
  | stops hguarded =>
    rw [meaning_guarded hguarded hstop hs]
    simp [sweep, touchAll, reviseAll, withError_self hs herror]
  | map _ ih =>
    rw [meaning_map, Parser.map, ih hstop]
    exact sweep_bind fun _ => rfl
  | chain _ ih =>
    rw [meaning_chain, Parser.chain, ih hstop]
    exact sweep_bind fun _ => rfl
  | errorMap _ ih =>
    rw [meaning_errorMap, Parser.errorMap, ih hstop]
    simp only [sweep, reviseAll_append, bind_assoc, pure_bind]
    rfl
  | named _ ih =>
    rw [meaning_named]
    exact ih hstop
  | lazy _ ih =>
    rw [meaning_lazy]
    simp only [sweep, touchAll, bind_assoc, ih hstop]
  | rule hname _ ih =>
    rw [meaning_rule_of_some hname]
    exact ih hstop

/-- A failed state that comes back has taken a path. -/
theorem exists_headPath {fuel : Nat} {t : State} {j k : Journal}
    (h : g.parser rules fuel s j = .returned t k) :
    ∃ stop touches handlers, HeadPath rules g stop touches handlers := by
  induction fuel generalizing g s t j k with
  | zero => cases h
  | succ fuel ih =>
    cases g with
    | map body f =>
      simp only [parser, Parser.map] at h
      obtain ⟨u, l, hbody, -⟩ := Run.returned_of_bind h
      obtain ⟨stop, touches, handlers, hpath⟩ := ih hbody
      exact ⟨stop, touches, handlers, .map hpath⟩
    | chain body prepare next =>
      simp only [parser, Parser.chain] at h
      obtain ⟨u, l, hbody, -⟩ := Run.returned_of_bind h
      obtain ⟨stop, touches, handlers, hpath⟩ := ih hbody
      exact ⟨stop, touches, handlers, .chain hpath⟩
    | errorMap body handler =>
      simp only [parser, Parser.errorMap] at h
      obtain ⟨u, l, hbody, -⟩ := Run.returned_of_bind h
      obtain ⟨stop, touches, handlers, hpath⟩ := ih hbody
      exact ⟨stop, touches, handlers ++ [handler], .errorMap hpath⟩
    | named body name =>
      obtain ⟨stop, touches, handlers, hpath⟩ := ih h
      exact ⟨stop, touches, handlers, .named hpath⟩
    | lazy touch body =>
      simp only [parser, Parser.lazy, bind_assoc] at h
      obtain ⟨_, l, _, hbody⟩ := Run.returned_of_bind h
      obtain ⟨stop, touches, handlers, hpath⟩ := ih hbody
      exact ⟨stop, touch :: touches, handlers, .lazy hpath⟩
    | rule name =>
      cases hname : rules.lookup name with
      | none =>
        simp only [parser, hname] at h
        cases h
      | some body =>
        simp only [parser, hname] at h
        obtain ⟨stop, touches, handlers, hpath⟩ := ih h
        exact ⟨stop, touches, handlers, .rule hname hpath⟩
    | _ => exact ⟨_, [], [], .stops True.intro⟩

theorem HeadPath.stepIs {kind : (State → Response State) → Prop} (hrules : rules.StepsAre kind)
    (h : HeadPath rules g stop touches handlers) (hg : g.StepsAre kind) : StepIs kind stop := by
  induction h with
  | stops _ => exact hg.here
  | map _ ih => exact ih (hg.part (.map _ _))
  | chain _ ih => exact ih (hg.part (.chainBody _ _ _))
  | errorMap _ ih => exact ih (hg.part (.errorMap _ _))
  | named _ ih => exact ih (hg.part (.named _ _))
  | lazy _ ih => exact ih (hg.part (.lazy _ _))
  | rule hname _ ih => exact ih (hrules _ _ hname)

end Path

/-! ### Functions and continuations are not called -/

/-- The node with a function or a continuation that raises a fault in the place of its
    own. -/
def mined (fault : Fault) : Grammar → Grammar
  | .map body _ => .map body fun _ => Response.raise fault
  | .chain body _ next => .chain body (fun _ => Response.raise fault) next
  | g => g

section Mined

variable {rules : Rules} {g stop : Grammar} {touches : List (Response Unit)}
  {handlers : List Handler} {s t : State} {e : ParseError} {j k : Journal}

theorem guarded_mined (fault : Fault) (h : g.Guarded) : (g.rewrite (mined fault)).Guarded := by
  rw [rewrite_eq]
  cases g <;> exact h

theorem stepIs_mined (fault : Fault) {kind : (State → Response State) → Prop} (h : StepIs kind g) :
    StepIs kind (g.rewrite (mined fault)) := by
  rw [rewrite_eq]
  cases g with
  | custom _ _ => exact h
  | _ => exact True.intro

/-- The path of a failed state is the same when all functions and continuations raise. -/
theorem HeadPath.mined (fault : Fault) (h : HeadPath rules g stop touches handlers) :
    HeadPath (rules.rewrite (mined fault)) (g.rewrite (mined fault))
      (stop.rewrite (mined fault)) touches handlers := by
  induction h with
  | stops hguarded => exact .stops (guarded_mined fault hguarded)
  | map _ ih => exact .map ih
  | chain _ ih => exact .chain ih
  | errorMap _ ih => exact .errorMap ih
  | named _ ih => exact .named ih
  | lazy _ ih => exact .lazy ih
  | rule hname _ ih => exact .rule (by rw [lookup_rewrite, hname, Option.map_some]) ih

/-- From the state `s`, which has failed with the error `e`, to `t`: nothing but the
    error is different. -/
structure Propagates (rules : Rules) (g : Grammar) (s : State) (e : ParseError) (j : Journal)
    (t : State) (k : Journal) : Prop where
  input : t.input = s.input
  cursor : t.cursor = s.cursor
  result : t.result = s.result
  isError : t.isError = s.isError
  path : ∃ stop touches handlers, HeadPath rules g stop touches handlers
  /-- The thunks and the handlers on the path are all that is called. -/
  error : ∀ stop touches handlers, HeadPath rules g stop touches handlers →
    ∃ l e', touchAll touches j = .returned () l ∧
      reviseAll handlers s.cursor e l = .returned e' k ∧ t.error = some e'
  same : ∀ stop touches, HeadPath rules g stop touches [] → t = s
  /-- Functions and continuations may as well raise. -/
  mined : ∀ fault, SettlesOn
    (fun fuel => (g.rewrite (mined fault)).parser (rules.rewrite (mined fault)) fuel s) j
    (.returned t k)

/-- **A failed state is propagated.**  What a grammar makes of a state that has failed
    with an error differs from it in the error at most.  The error is the one that the
    handlers on the path of the state, the innermost first, have made of the error
    before; without handlers, nothing is different.  The thunks on the path and these
    handlers are all that is called: it comes to the same if every function and every
    continuation, in the grammar and in its rules, raises. -/
theorem failed_state_propagated (hrules : rules.StepsAre LeavesFailed)
    (hg : g.StepsAre LeavesFailed) {fuel : Nat} (hs : s.isError = true)
    (herror : s.error = some e) (h : g.parser rules fuel s j = .returned t k) :
    Propagates rules g s e j t k := by
  have hmeaning : g.meaning rules s j = .returned t k :=
    (parser_extends_meaning rules fuel g s).returned h
  have hends : ∀ {stop touches handlers}, HeadPath rules g stop touches handlers →
      ∃ l e', touchAll touches j = .returned () l ∧
        reviseAll handlers s.cursor e l = .returned e' k ∧ t = s.withError (some e') := by
    intro stop touches handlers hpath
    rw [hpath.meaning_eq (hpath.stepIs hrules hg) hs herror] at hmeaning
    obtain ⟨_, l, htouch, hrest⟩ := Run.returned_of_bind hmeaning
    obtain ⟨e', m, hrevise, hlast⟩ := Run.returned_of_bind hrest
    cases hlast
    exact ⟨l, e', htouch, hrevise, rfl⟩
  obtain ⟨stop, touches, handlers, hpath⟩ := exists_headPath h
  obtain ⟨l, e', -, -, ht⟩ := hends hpath
  refine ⟨by rw [ht]; rfl, by rw [ht]; rfl, by rw [ht]; rfl, by rw [ht, hs]; rfl,
    ⟨stop, touches, handlers, hpath⟩, ?_, ?_, ?_⟩
  · intro stop touches handlers hpath
    obtain ⟨l, e', htouch, hrevise, rfl⟩ := hends hpath
    exact ⟨l, e', htouch, hrevise, rfl⟩
  · intro stop touches hpath
    obtain ⟨l, e', -, hrevise, rfl⟩ := hends hpath
    cases hrevise
    exact withError_self hs herror
  · intro fault
    have hstop := hpath.stepIs hrules hg
    have hmined := (hpath.mined fault).meaning_eq (stepIs_mined fault hstop) hs herror
    rw [hpath.meaning_eq hstop hs herror] at hmeaning
    rw [settlesOn_iff, hmined]
    exact hmeaning

end Mined

/-! ### A table with labels -/

/-- An amount is some character, or whatever stands in a bracket behind it. -/
def amounts : Rules :=
  [("amount", label (.chain Probe.anyChar.grammar pure fun v =>
      .choice [between (.literal "(") (.literal ")") digits, .succeed v]) "an amount")]

/-- An amount, read as an integer. -/
def price : Grammar := label (.map (ref "amount") readInteger) "a price"

theorem amounts_leavesFailed : amounts.StepsAre LeavesFailed := by
  apply Rules.everywhere_of_mem
  simp [amounts, label, between, digits, Probe.grammar, StepIs, leavesFailed_probe]

theorem price_leavesFailed : price.StepsAre LeavesFailed := by
  simp [StepsAre, price, label, ref, StepIs]

/-- Both labels are on the path, and the function between them is not called. -/
theorem price_propagates :
    amounts.StepsAre LeavesFailed ∧ price.StepsAre LeavesFailed ∧
      ∃ s e t k, s.isError = true ∧ s.error = some e ∧
        price.parser amounts 12 s {} = .returned t k ∧
        t.error.map (·.message) = some "expecting a price: expecting an amount: too cheap" ∧
        Propagates amounts price s e {} t k := by
  obtain ⟨t, k, h, hmessage⟩ : ∃ t k, price.parser amounts 12
      ((State.initial (Text.ofString "7")).fail .message "too cheap") {} = .returned t k ∧
        t.error.map (·.message) = some "expecting a price: expecting an amount: too cheap" :=
    ⟨_, _, rfl, rfl⟩
  exact ⟨amounts_leavesFailed, price_leavesFailed, _, _, t, k, rfl, rfl, h, hmessage,
    failed_state_propagated amounts_leavesFailed price_leavesFailed rfl rfl h⟩

end Grammar

end Descent
