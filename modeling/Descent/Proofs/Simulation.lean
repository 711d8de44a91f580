/-
  Descent/Proofs/Simulation.lean
  ==============================
  **Two evaluations that take the same turns.**

  `Run.Mirrors` relates a run to a second one that has an answer wherever the first
  has one: the same kind of answer, with related values, related journals, and one
  and the same fault.  It is built up along with the runs, by one rule for each way
  of making a run.

  A `Coupling` says which states and journals count as related.  The states that
  parsers are applied to and those that they return are related differently: of two
  states that parsers are applied to, neither has failed.  Every operation on
  parsers respects a coupling, and that is all there is to show for the operations,
  whatever the coupling is used for: none of them applies a parser to a failed
  state, so what parsers do on failed states never matters.

  The first evaluation has a bound on its rounds and the second has none, so that
  an induction on fuel can compare the parser of one grammar with the meaning of
  another.
-/
import Descent.Proofs.Ensures
import Descent.Proofs.Steps
import Mathlib.Data.List.Forall2

namespace Descent

/-- The second outcome answers what the first one answers, if that is an answer. -/
inductive Outcome.Mirrored {α β : Type} (J : Journal → Journal → Prop) (R : α → β → Prop) :
    Outcome α → Outcome β → Prop where
  | returned {a : α} {b : β} {j k : Journal} (value : R a b) (journal : J j k) :
      Outcome.Mirrored J R (.returned a j) (.returned b k)
  | raised (fault : Fault) {j k : Journal} (journal : J j k) :
      Outcome.Mirrored J R (.raised fault j) (.raised fault k)
  | exhausted (o : Outcome β) : Outcome.Mirrored J R .exhausted o

/-- Both outcomes return, with related values, or both raise one and the same fault, and
    the journals are related; or neither is an answer. -/
def Outcome.Paired {α β : Type} (J : Journal → Journal → Prop) (R : α → β → Prop) :
    Outcome α → Outcome β → Prop
  | .returned a j, .returned b k => R a b ∧ J j k
  | .raised fault j, .raised fault' k => fault = fault' ∧ J j k
  | .exhausted, .exhausted => True
  | _, _ => False

/-- If each outcome answers the other, they make a pair; what the second answers the first
    with does not matter. -/
theorem Outcome.Mirrored.paired {α β : Type} {J : Journal → Journal → Prop} {R : α → β → Prop}
    {J' : Journal → Journal → Prop} {R' : β → α → Prop} {o : Outcome α} {o' : Outcome β}
    (h : Mirrored J R o o') (h' : Mirrored J' R' o' o) : Paired J R o o' := by
  cases h with
  | returned value journal => exact ⟨value, journal⟩
  | raised fault journal => exact ⟨rfl, journal⟩
  | exhausted o' =>
    cases h'
    exact True.intro

/-- The three ways of making a pair. -/
theorem Outcome.Paired.cases {α β : Type} {J : Journal → Journal → Prop} {R : α → β → Prop}
    {o : Outcome α} {o' : Outcome β} (h : Paired J R o o') :
    (∃ a b j k, o = .returned a j ∧ o' = .returned b k ∧ R a b ∧ J j k) ∨
      (∃ fault j k, o = .raised fault j ∧ o' = .raised fault k ∧ J j k) ∨
      (o = .exhausted ∧ o' = .exhausted) := by
  cases o with
  | returned a j =>
    cases o' with
    | returned b k => exact .inl ⟨a, b, j, k, rfl, rfl, h⟩
    | _ => exact h.elim
  | raised fault j =>
    cases o' with
    | raised fault' k =>
      obtain ⟨rfl, hjk⟩ := h
      exact .inr (.inl ⟨fault, j, k, rfl, rfl, hjk⟩)
    | _ => exact h.elim
  | exhausted =>
    cases o' with
    | exhausted => exact .inr (.inr ⟨rfl, rfl⟩)
    | _ => exact h.elim

theorem Outcome.Paired.mirrored {α β : Type} {J : Journal → Journal → Prop} {R : α → β → Prop}
    {o : Outcome α} {o' : Outcome β} (h : Paired J R o o') : Mirrored J R o o' := by
  obtain ⟨a, b, j, k, rfl, rfl, hab, hjk⟩ | ⟨fault, j, k, rfl, rfl, hjk⟩ | ⟨rfl, rfl⟩ := h.cases
  · exact .returned hab hjk
  · exact .raised fault hjk
  · exact .exhausted _

theorem Outcome.Paired.symm {α β : Type} {J : Journal → Journal → Prop}
    {J' : Journal → Journal → Prop} {R : α → β → Prop} {R' : β → α → Prop} {o : Outcome α}
    {o' : Outcome β} (h : Paired J R o o') (hR : ∀ a b, R a b → R' b a)
    (hJ : ∀ j k, J j k → J' k j) : Paired J' R' o' o := by
  obtain ⟨a, b, j, k, rfl, rfl, hab, hjk⟩ | ⟨fault, j, k, rfl, rfl, hjk⟩ | ⟨rfl, rfl⟩ := h.cases
  · exact ⟨hR a b hab, hJ j k hjk⟩
  · exact ⟨rfl, hJ j k hjk⟩
  · exact True.intro

theorem Outcome.Mirrored.comp {α β γ : Type} {J J' J'' : Journal → Journal → Prop}
    {R : α → β → Prop} {R' : β → γ → Prop} {R'' : α → γ → Prop} {o : Outcome α} {o' : Outcome β}
    {o'' : Outcome γ} (h : Mirrored J R o o') (h' : Mirrored J' R' o' o'')
    (hR : ∀ a b c, R a b → R' b c → R'' a c) (hJ : ∀ i j k, J i j → J' j k → J'' i k) :
    Mirrored J'' R'' o o'' := by
  cases h with
  | returned value journal =>
    cases h' with
    | returned value' journal' =>
      exact .returned (hR _ _ _ value value') (hJ _ _ _ journal journal')
  | raised fault journal =>
    cases h' with
    | raised _ journal' => exact .raised fault (hJ _ _ _ journal journal')
  | exhausted _ => exact .exhausted _

namespace Run

variable {α β α' β' : Type} {J : Journal → Journal → Prop} {R : α → β → Prop}
  {S : α' → β' → Prop}

/-- From related journals, `y` answers what `x` answers. -/
def Mirrors (J : Journal → Journal → Prop) (R : α → β → Prop) (x : Run α) (y : Run β) : Prop :=
  ∀ j k, J j k → Outcome.Mirrored J R (x j) (y k)

theorem Mirrors.pure {a : α} {b : β} (h : R a b) : Mirrors J R (pure a) (pure b) := by
  intro j k hjk
  exact .returned h hjk

theorem Mirrors.raise (fault : Fault) : Mirrors J R (raise fault) (raise fault) := by
  intro j k hjk
  exact .raised fault hjk

theorem Mirrors.exhausted (y : Run β) : Mirrors J R exhausted y := by
  intro j k _
  exact .exhausted (y k)

theorem Mirrors.returned {x : Run α} {y : Run β} (h : Mirrors J R x y) {j k l : Journal} {a : α}
    (hjk : J j k) (hx : x j = .returned a l) : ∃ b m, y k = .returned b m ∧ R a b ∧ J l m := by
  have hanswer := h j k hjk
  rw [hx] at hanswer
  generalize y k = o at hanswer ⊢
  cases hanswer with
  | returned value journal => exact ⟨_, _, rfl, value, journal⟩

theorem Mirrors.raised {x : Run α} {y : Run β} (h : Mirrors J R x y) {j k l : Journal}
    {fault : Fault} (hjk : J j k) (hx : x j = .raised fault l) :
    ∃ m, y k = .raised fault m ∧ J l m := by
  have hanswer := h j k hjk
  rw [hx] at hanswer
  generalize y k = o at hanswer ⊢
  cases hanswer with
  | raised _ journal => exact ⟨_, rfl, journal⟩

theorem Mirrors.bind {x : Run α} {y : Run β} {f : α → Run α'} {g : β → Run β'}
    (hxy : Mirrors J R x y) (hfg : ∀ a b, R a b → Mirrors J S (f a) (g b)) :
    Mirrors J S (x >>= f) (y >>= g) := by
  intro j k hjk
  rw [bind_apply, bind_apply]
  have hfirst := hxy j k hjk
  generalize x j = o at hfirst ⊢
  generalize y k = o' at hfirst ⊢
  cases hfirst with
  | returned hab hjournals => exact hfg _ _ hab _ _ hjournals
  | raised fault hjournals => exact .raised fault hjournals
  | exhausted _ => exact .exhausted _

/-- What the first run does beforehand is not answered by anything. -/
theorem Mirrors.bind_left {Q : α → Unit → Prop} {x : Run α} {f : α → Run α'} {y : Run β'}
    (hx : Mirrors J Q x (Pure.pure ()))
    (hf : ∀ a, Mirrors J S (f a) y) : Mirrors J S (x >>= f) y := by
  have h := hx.bind (g := fun _ => y) fun a _ _ => hf a
  rwa [pure_bind] at h

/-- What the second run does beforehand answers nothing. -/
theorem Mirrors.bind_right {Q : Unit → β → Prop} {x : Run α'} {y : Run β} {g : β → Run β'}
    (hy : Mirrors J Q (Pure.pure ()) y)
    (hg : ∀ b, Mirrors J S x (g b)) : Mirrors J S x (y >>= g) := by
  have h := hy.bind (f := fun _ => x) fun _ b _ => hg b
  rwa [pure_bind] at h

theorem Mirrors.ite {c d : Prop} [Decidable c] [Decidable d] {x x' : Run α} {y y' : Run β}
    (hcd : c ↔ d) (hyes : c → Mirrors J R x y) (hno : ¬c → Mirrors J R x' y') :
    Mirrors J R (if c then x else x') (if d then y else y') := by
  by_cases hc : c
  · rw [if_pos hc, if_pos (hcd.mp hc)]
    exact hyes hc
  · rw [if_neg hc, if_neg fun hd => hc (hcd.mpr hd)]
    exact hno hc

/-- What follows a pair makes a pair; the journals may be related more loosely then. -/
theorem paired_bind {J' : Journal → Journal → Prop} {x : Run α} {y : Run β} {f : α → Run α'}
    {g : β → Run β'} {j k : Journal} (h : (x j).Paired J R (y k))
    (hjournals : ∀ j k, J j k → J' j k)
    (hfg : ∀ a b j k, R a b → J j k → (f a j).Paired J' S (g b k)) :
    ((x >>= f) j).Paired J' S ((y >>= g) k) := by
  rw [bind_apply, bind_apply]
  obtain ⟨a, b, j', k', hx, hy, hab, hjk⟩ | ⟨fault, j', k', hx, hy, hjk⟩ | ⟨hx, hy⟩ := h.cases
  · rw [hx, hy]
    exact hfg a b j' k' hab hjk
  · rw [hx, hy]
    exact ⟨rfl, hjournals j' k' hjk⟩
  · rw [hx, hy]
    exact True.intro

/-- What follows one and the same run makes pairs if it does behind every value that is
    returned. -/
theorem Ensures.paired {P : α → Prop} {x : Run α} {f : α → Run α'} {g : α → Run β'}
    (hx : x.Ensures P) (h : ∀ a, P a → ∀ k, (f a k).Paired (fun _ _ => True) S (g a k))
    (j : Journal) : ((x >>= f) j).Paired (fun _ _ => True) S ((x >>= g) j) := by
  have hself : (x j).Paired Eq (fun a b => a = b ∧ P a) (x j) := by
    cases hj : x j with
    | returned a k => exact ⟨⟨rfl, hx j a k hj⟩, rfl⟩
    | raised fault k => exact ⟨rfl, rfl⟩
    | exhausted => exact True.intro
  refine paired_bind hself (fun _ _ _ => True.intro) ?_
  rintro a _ k _ ⟨rfl, ha⟩ rfl
  exact h a ha k

theorem Mirrors.of_extends {x x' : Run α} {y : Run β} (hx : Extends x x') (h : Mirrors J R x' y) :
    Mirrors J R x y := by
  intro j k hjk
  rcases hx j with hnone | heq
  · rw [hnone]
    exact .exhausted (y k)
  · rw [← heq]
    exact h j k hjk

theorem Mirrors.limit {x : Nat → Run α} {y : Run β} (h : ∀ n, Mirrors J R (x n) y) :
    Mirrors J R (limit x) y := by
  intro j k hjk
  by_cases hnone : Run.limit x j = .exhausted
  · rw [hnone]
    exact .exhausted (y k)
  · obtain ⟨n, hn⟩ := exists_fuel_of_limit_ne hnone
    rw [← hn]
    exact h n j k hjk

/-- Two rising families that mirror each other in the end make pairs, from some amount of
    fuel on. -/
theorem exists_fuel_paired {J' : Journal → Journal → Prop} {R' : β → α → Prop}
    {x : Nat → Run α} {y : Nat → Run β} (hx : Rising x) (hy : Rising y)
    (h : ∀ fuel, Mirrors J R (x fuel) (Run.limit y))
    (h' : ∀ fuel, Mirrors J' R' (y fuel) (Run.limit x)) {j k : Journal} (hjk : J j k)
    (hkj : J' k j) : ∃ n, ∀ fuel, n ≤ fuel → (x fuel j).Paired J R (y fuel k) := by
  obtain ⟨n, hn⟩ := hx.settles j
  obtain ⟨m, hm⟩ := hy.settles k
  refine ⟨max n m, fun fuel hfuel => ?_⟩
  rw [hn fuel (by omega), hm fuel (by omega)]
  exact (Mirrors.limit h j k hjk).paired (Mirrors.limit h' k j hkj)

end Run

theorem Journal.calls_perform {j k : Journal} (h : j.calls = k.calls) (e : Effect) :
    (j.perform e).calls = (k.perform e).calls := by
  cases e with
  | call label argument => rw [perform, perform, h]
  | setDebug on => exact h

/-- The functions have the same effects and answer with related values, or with one and
    the same fault. -/
def Response.Related {α β : Type} (R : α → β → Prop) (r : Response α) (r' : Response β) : Prop :=
  r.effects = r'.effects ∧
    match r.outcome, r'.outcome with
    | .ok a, .ok b => R a b
    | .error fault, .error fault' => fault = fault'
    | _, _ => False

theorem Response.related_self {α : Type} (r : Response α) : r.Related Eq r := by
  refine ⟨rfl, ?_⟩
  cases r.outcome <;> rfl

/-- What two evaluations that take the same turns have in common: how their
    journals are related, the states that parsers are applied to, and the states that
    parsers return.

    Effects of user functions keep journals related, and the debug log plays no
    part.  States that parsers are applied to have not failed; returned states agree
    on whether they have. -/
structure Coupling where
  journals : Journal → Journal → Prop
  before : State → State → Prop
  after : State → State → Prop
  perform {j k : Journal} (h : journals j k) (e : Effect) : journals (j.perform e) (k.perform e)
  writeLeft {j k : Journal} (h : journals j k) (line : String) : journals (j.write line) k
  writeRight {j k : Journal} (h : journals j k) (line : String) : journals j (k.write line)
  before_ok {s t : State} (h : before s t) : s.isError = false ∧ t.isError = false
  cursor_iff {s t s' t' : State} (h : before s t) (h' : before s' t') :
    s'.cursor = s.cursor ↔ t'.cursor = t.cursor
  withResult {s t : State} (h : before s t) (v : Value) : after (s.withResult v) (t.withResult v)
  fail {s t : State} (h : before s t) (kind : ErrorKind) (message : Nat → String) :
    after (s.fail kind (message s.cursor)) (t.fail kind (message t.cursor))
  isError_eq {s t : State} (h : after s t) : s.isError = t.isError
  result_eq {s t : State} (h : after s t) (ok : s.isError = false) : s.result = t.result
  goesOn {s t : State} (h : after s t) (ok : s.isError = false) : before s t

namespace Coupling

open Descent.Parser

variable (c : Coupling) {p q p' q' : Parser} {s t : State}

/-- From related states, the second parser answers what the first one answers. -/
def Mirrors (p q : Parser) : Prop :=
  ∀ s t, c.before s t → Run.Mirrors c.journals c.after (p s) (q t)

/-! ### Effects and log lines -/

theorem performAll {j k : Journal} (h : c.journals j k) (effects : List Effect) :
    c.journals (j.performAll effects) (k.performAll effects) := by
  induction effects generalizing j k with
  | nil => exact h
  | cons e effects ih => exact ih (c.perform h e)

/-- User functions that are related do the same in both evaluations. -/
theorem mirrors_related {α β : Type} {R : α → β → Prop} {r : Response α} {r' : Response β}
    (h : r.Related R r') : Run.Mirrors c.journals R r.run r'.run := by
  intro j k hjk
  obtain ⟨heffects, houtcome⟩ := h
  have hjournals := c.performAll hjk r.effects
  rw [Response.run, Response.run, ← heffects]
  cases hr : r.outcome <;> cases hr' : r'.outcome <;> rw [hr, hr'] at houtcome
  case ok.ok => exact .returned houtcome hjournals
  case error.error =>
    cases houtcome
    exact .raised _ hjournals
  all_goals exact houtcome.elim

/-- A user function does the same in both evaluations. -/
theorem mirrors_response {α : Type} (r : Response α) : Run.Mirrors c.journals Eq r.run r.run :=
  c.mirrors_related r.related_self

/-- It makes no difference whether the first evaluation logs a line. -/
theorem mirrors_debugLine_left (line : String) :
    Run.Mirrors c.journals Eq (Run.debugLine line) (pure ()) := by
  intro j k hjk
  rw [Run.debugLine_apply]
  refine .returned rfl ?_
  split
  · exact c.writeLeft hjk line
  · exact hjk

/-- It makes no difference whether the second evaluation logs a line. -/
theorem mirrors_debugLine_right (line : String) :
    Run.Mirrors c.journals Eq (pure ()) (Run.debugLine line) := by
  intro j k hjk
  rw [Run.debugLine_apply]
  refine .returned rfl ?_
  split
  · exact c.writeRight hjk line
  · exact hjk

/-- It makes no difference what is logged, nor whether anything is. -/
theorem mirrors_debugLine (line line' : String) :
    Run.Mirrors c.journals Eq (Run.debugLine line) (Run.debugLine line') := by
  have h := (c.mirrors_debugLine_left line).bind (g := fun _ => Run.debugLine line')
    fun _ _ _ => c.mirrors_debugLine_right line'
  rwa [bind_pure_unit, pure_bind] at h

/-! ### One parser -/

/-- The guard of an operation does not take effect. -/
theorem mirrors_guarded {x y : Run State} (h : c.before s t)
    (hxy : Run.Mirrors c.journals c.after x y) :
    Run.Mirrors c.journals c.after (if s.isError then pure s else x)
      (if t.isError then pure t else y) := by
  obtain ⟨hs, ht⟩ := c.before_ok h
  rw [hs, ht, if_neg Bool.false_ne_true, if_neg Bool.false_ne_true]
  exact hxy

theorem isError_iff (h : c.after s t) : s.isError = true ↔ t.isError = true := by
  rw [c.isError_eq h]

theorem goesOn_of_not (h : c.after s t) (hok : ¬s.isError = true) : c.before s t :=
  c.goesOn h (Bool.eq_false_iff.mpr hok)

theorem result_eq_of_not (h : c.after s t) (hok : ¬s.isError = true) : s.result = t.result :=
  c.result_eq h (Bool.eq_false_iff.mpr hok)

theorem mirrors_succeed (value : Value) : c.Mirrors (succeed value) (succeed value) := by
  intro s t h
  exact c.mirrors_guarded h (.pure (c.withResult h value))

theorem mirrors_fail (message message' : String)
    (hmessage : ∀ s t, c.before s t →
      c.after (s.fail .message message) (t.fail .message message')) :
    c.Mirrors (Parser.fail message) (Parser.fail message') := by
  intro s t h
  exact c.mirrors_guarded h (.pure (hmessage s t h))

theorem mirrors_map (f : Value → Response Value) (h : c.Mirrors p q) :
    c.Mirrors (p.map fun v => (f v).run) (q.map fun v => (f v).run) := by
  intro s t hst
  refine .bind (h s t hst) fun s' t' hafter => ?_
  refine .ite (c.isError_iff hafter) (fun _ => .pure hafter) fun hok => ?_
  rw [c.result_eq_of_not hafter hok]
  refine .bind (c.mirrors_response (f t'.result)) fun v w hvw => ?_
  subst hvw
  exact .pure (c.withResult (c.goesOn_of_not hafter hok) v)

theorem mirrors_chain {f g : Value → Run Parser} (h : c.Mirrors p q)
    (hnext : ∀ v, Run.Mirrors c.journals c.Mirrors (f v) (g v)) :
    c.Mirrors (p.chain f) (q.chain g) := by
  intro s t hst
  refine .bind (h s t hst) fun s' t' hafter => ?_
  refine .ite (c.isError_iff hafter) (fun _ => .pure hafter) fun hok => ?_
  rw [c.result_eq_of_not hafter hok]
  refine .bind (hnext t'.result) fun p' q' hchosen => ?_
  exact hchosen s' t' (c.goesOn_of_not hafter hok)

/-- What a handler of errors reads has to be the same, and what it writes kept. -/
theorem mirrors_errorMap (handler : ParseError → Nat → Response Revision) (h : c.Mirrors p q)
    (hread : ∀ s t, c.after s t → s.error = t.error ∧ s.cursor = t.cursor)
    (hwrite : ∀ s t e, c.after s t → c.after (s.withError e) (t.withError e)) :
    c.Mirrors (p.errorMap fun e cursor => (handler e cursor).run)
      (q.errorMap fun e cursor => (handler e cursor).run) := by
  intro s t hst
  refine .bind (h s t hst) fun s' t' hafter => ?_
  obtain ⟨herror, hcursor⟩ := hread s' t' hafter
  rw [herror, hcursor]
  cases t'.error with
  | none => exact .pure hafter
  | some e =>
    refine .bind (c.mirrors_response (handler e t'.cursor)) fun r r' hr => ?_
    subst hr
    exact .pure (hwrite s' t' _ hafter)

theorem mirrors_traced (label label' : String) (h : c.Mirrors p q) :
    c.Mirrors (traced label p) (traced label' q) := by
  intro s t hst
  refine c.mirrors_guarded hst (.bind (c.mirrors_debugLine _ _) fun _ _ _ => ?_)
  refine .bind (h s t hst) fun s' t' hafter => ?_
  refine .ite (c.isError_iff hafter) (fun _ => ?_) fun _ => .pure hafter
  exact .bind (c.mirrors_debugLine _ _) fun _ _ _ => .pure hafter

/-- The log lines around the first parser have no counterpart. -/
theorem mirrors_traced_left (label : String) (h : c.Mirrors p q) :
    c.Mirrors (traced label p) q := by
  intro s t hst
  obtain ⟨hs, -⟩ := c.before_ok hst
  rw [traced, hs, if_neg Bool.false_ne_true]
  refine .bind_left (c.mirrors_debugLine_left _) fun _ => ?_
  rw [← bind_pure (q t)]
  refine .bind (h s t hst) fun s' t' hafter => ?_
  split
  · exact .bind_left (c.mirrors_debugLine_left _) fun _ => .pure hafter
  · exact .pure hafter

/-- The log lines around the second parser are no counterpart to anything. -/
theorem mirrors_traced_right (label : String) (h : c.Mirrors p q) :
    c.Mirrors p (traced label q) := by
  intro s t hst
  obtain ⟨-, ht⟩ := c.before_ok hst
  rw [traced, ht, if_neg Bool.false_ne_true]
  refine .bind_right (c.mirrors_debugLine_right _) fun _ => ?_
  rw [← bind_pure (p s)]
  refine .bind (h s t hst) fun s' t' hafter => ?_
  split
  · exact .bind_right (c.mirrors_debugLine_right _) fun _ => .pure hafter
  · exact .pure hafter

theorem mirrors_trace (label label' : String) (h : ∀ s t, c.before s t → c.after s t) :
    c.Mirrors (trace label) (trace label') := by
  have htrace : ∀ (label : String) (s : State), s.isError = false →
      trace label s = Run.debugLine (positionLine label s) >>= fun _ => pure s := by
    intro label s hs
    funext j
    rw [trace, Run.bind_returned (x := Run.debugging) rfl,
      Run.bind_returned (Run.debugLine_apply _ _), hs]
    cases j.debug <;> rfl
  intro s t hst
  obtain ⟨hs, ht⟩ := c.before_ok hst
  rw [htrace label s hs, htrace label' t ht]
  exact .bind (c.mirrors_debugLine _ _) fun _ _ _ => .pure (h s t hst)

/-! ### Lists of parsers -/

theorem mirrors_sequenceFrom {ps qs : List Parser} (h : List.Forall₂ c.Mirrors ps qs)
    (results : List Value) : c.Mirrors (sequenceFrom ps results) (sequenceFrom qs results) := by
  induction h generalizing results with
  | nil =>
    intro s t hst
    exact .pure (c.withResult hst _)
  | cons hfirst _ ih =>
    intro s t hst
    refine .bind (hfirst s t hst) fun s' t' hafter => ?_
    refine .ite (c.isError_iff hafter) (fun _ => .pure hafter) fun hok => ?_
    rw [c.result_eq_of_not hafter hok]
    exact ih (t'.result :: results) s' t' (c.goesOn_of_not hafter hok)

theorem mirrors_sequence {ps qs : List Parser} (h : List.Forall₂ c.Mirrors ps qs) :
    c.Mirrors (sequence ps) (sequence qs) := by
  intro s t hst
  exact c.mirrors_guarded hst (c.mirrors_sequenceFrom h [] s t hst)

/-- The failed attempts are dropped: the next alternative is applied to where the
    choice started. -/
theorem mirrors_choiceFrom {ps qs : List Parser} (h : List.Forall₂ c.Mirrors ps qs) :
    c.Mirrors (choiceFrom ps) (choiceFrom qs) := by
  induction h with
  | nil =>
    intro s t hst
    exact .pure (c.fail hst _ fun cursor =>
      "choice: Unable to match with any parser at index " ++ toString cursor)
  | cons hfirst _ ih =>
    intro s t hst
    refine .bind (hfirst s t hst) fun s' t' hafter => ?_
    exact .ite (c.isError_iff hafter) (fun _ => ih s t hst) fun _ => .pure hafter

theorem mirrors_choice {ps qs : List Parser} (h : List.Forall₂ c.Mirrors ps qs) :
    c.Mirrors (choice ps) (choice qs) := by
  intro s t hst
  exact c.mirrors_guarded hst (c.mirrors_choiceFrom h s t hst)

/-! ### Loops -/

/-- The same results, and states from which both evaluations could go on. -/
def SameHarvest (h h' : Harvest) : Prop := h.results = h'.results ∧ c.before h.state h'.state

/-- Two rounds mirror each other if what follows them does. -/
theorem mirrors_round (h : c.Mirrors p q) (hst : c.before s t)
    {next next' : List Value → State → Run Harvest}
    (hnext : ∀ results s t, c.before s t →
      Run.Mirrors c.journals c.SameHarvest (next results s) (next' results t))
    (results : List Value) :
    Run.Mirrors c.journals c.SameHarvest (round p next results s) (round q next' results t) := by
  refine .bind (h s t hst) fun s' t' hafter => ?_
  refine .ite (c.isError_iff hafter) (fun _ => .pure ⟨rfl, hst⟩) fun hok => ?_
  have hbefore := c.goesOn_of_not hafter hok
  rw [c.result_eq_of_not hafter hok]
  refine .ite (c.cursor_iff hst hbefore) (fun _ => .pure ⟨rfl, hbefore⟩) fun _ => ?_
  exact hnext (t'.result :: results) s' t' hbefore

theorem mirrors_collect (h : c.Mirrors p q) (fuel : Nat) (results : List Value)
    (hst : c.before s t) :
    Run.Mirrors c.journals c.SameHarvest (collect p fuel results s) (gather q results t) := by
  induction fuel generalizing results s t with
  | zero => exact .exhausted _
  | succ fuel ih =>
    rw [collect_eq_round, gather_eq_round]
    exact c.mirrors_round h hst (fun results _ _ hbefore => ih results hbefore) results

theorem mirrors_many (h : c.Mirrors p q) (fuel : Nat) : c.Mirrors (many fuel p) (repeated q) := by
  intro s t hst
  refine c.mirrors_guarded hst (.bind (c.mirrors_collect h fuel [] hst) fun a b hab => ?_)
  rw [hab.1]
  exact .pure (c.withResult hab.2 _)

theorem mirrors_many1 (h : c.Mirrors p q) (fuel : Nat) :
    c.Mirrors (many1 fuel p) (repeated1 q) := by
  intro s t hst
  refine c.mirrors_guarded hst (.bind (c.mirrors_collect h fuel [] hst) fun a b hab => ?_)
  rw [hab.1]
  refine .ite Iff.rfl (fun _ => ?_) fun _ => .pure (c.withResult hab.2 _)
  exact .pure (c.fail hst _ fun cursor =>
    "many1: Unable to match any input using parser @ index " ++ toString cursor)

theorem mirrors_collectSeparated (hsep : c.Mirrors p q) (hvalue : c.Mirrors p' q') (fuel : Nat)
    (results : List Value) (hst : c.before s t) :
    Run.Mirrors c.journals c.SameHarvest (collectSeparated p p' fuel results s)
      (gatherSeparated q q' results t) := by
  induction fuel generalizing results s t with
  | zero => exact .exhausted _
  | succ fuel ih =>
    rw [gatherSeparated_eq]
    refine .bind (hvalue s t hst) fun s' t' hafter => ?_
    refine .ite (c.isError_iff hafter) (fun _ => .pure ⟨rfl, hst⟩) fun hok => ?_
    have hfound := c.goesOn_of_not hafter hok
    rw [c.result_eq_of_not hafter hok]
    refine .bind (hsep s' t' hfound) fun s'' t'' hbehind => ?_
    have hstops : (s''.isError || s''.cursor == s.cursor) = true
        ↔ (t''.isError || t''.cursor == t.cursor) = true := by
      rw [c.isError_eq hbehind]
      cases hfailed : t''.isError with
      | true => rw [Bool.true_or, Bool.true_or]
      | false =>
        have hbefore := c.goesOn hbehind ((c.isError_eq hbehind).trans hfailed)
        simpa using c.cursor_iff hst hbefore
    refine .ite hstops (fun _ => .pure ⟨rfl, hfound⟩) fun hgoes => ?_
    have hok' : s''.isError = false := by
      rw [Bool.or_eq_true, not_or] at hgoes
      exact Bool.eq_false_iff.mpr hgoes.1
    exact ih (t'.result :: results) (c.goesOn hbehind hok')

theorem mirrors_sepBy (hsep : c.Mirrors p q) (hvalue : c.Mirrors p' q') (fuel : Nat) :
    c.Mirrors (sepBy fuel p p') (separated q q') := by
  intro s t hst
  refine c.mirrors_guarded hst ?_
  refine .bind (c.mirrors_collectSeparated hsep hvalue fuel [] hst) fun a b hab => ?_
  rw [hab.1]
  exact .pure (c.withResult hab.2 _)

theorem mirrors_sepBy1 (hsep : c.Mirrors p q) (hvalue : c.Mirrors p' q') (fuel : Nat) :
    c.Mirrors (sepBy1 fuel p p') (separated1 q q') := by
  intro s t hst
  refine c.mirrors_guarded hst ?_
  refine .bind (c.mirrors_collectSeparated hsep hvalue fuel [] hst) fun a b hab => ?_
  rw [hab.1]
  refine .ite Iff.rfl (fun _ => ?_) fun _ => .pure (c.withResult hab.2 _)
  exact .pure (c.fail hst _ fun cursor =>
    "sep_by1: Unable to capture any results at index " ++ toString cursor)

/-! ### One and the same state -/

/-- Evaluations from one and the same state that record the same calls. -/
def identity : Coupling where
  journals j k := j.calls = k.calls
  before s t := s = t ∧ s.isError = false
  after := Eq
  perform h e := Journal.calls_perform h e
  writeLeft h _ := h
  writeRight h _ := h
  before_ok {s t} h := by
    obtain ⟨rfl, hok⟩ := h
    exact ⟨hok, hok⟩
  cursor_iff {s t s' t'} h h' := by
    obtain ⟨rfl, _⟩ := h
    obtain ⟨rfl, _⟩ := h'
    rfl
  withResult {s t} h v := by rw [h.1]
  fail {s t} h kind message := by rw [h.1]
  isError_eq {s t} h := by rw [h]
  result_eq {s t} h _ := by rw [h]
  goesOn h ok := ⟨h, ok⟩

/-! ### Any journals -/

/-- The same states are related, whatever the journals hold. -/
def regardless (c : Coupling) : Coupling :=
  { c with
    journals := fun _ _ => True
    perform := fun _ _ => True.intro
    writeLeft := fun _ _ => True.intro
    writeRight := fun _ _ => True.intro }

end Coupling

end Descent
