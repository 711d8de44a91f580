/-
  Descent/Proofs/Context.lean
  ===========================
  **No parser is ever given a failed state.**

  A context is a grammar in which a rule of a certain name stands for a hole.  Two
  grammars that agree on every state that has not failed agree in every context
  (`alike_fill`): what a parser does on failed states is never asked for.

  The same is seen from inside: an alarm put in front of every parser of a grammar
  and of its rules, which raises a fault as soon as that parser is given a failed
  state, never goes off (`alike_rewrite_alarmed`).
-/
import Descent.Grammar.Probe
import Descent.Grammar.Run
import Descent.Proofs.Rewriting

namespace Descent

/-- Both outcomes return one value, or both raise one fault, after the same calls of
    user functions; or neither is an answer. -/
def Outcome.Agrees {α : Type} : Outcome α → Outcome α → Prop
  | .returned a j, .returned b k => a = b ∧ j.calls = k.calls
  | .raised fault j, .raised fault' k => fault = fault' ∧ j.calls = k.calls
  | .exhausted, .exhausted => True
  | _, _ => False

namespace Outcome

variable {α : Type} {o o' o'' : Outcome α}

/-- The first outcome is answered by the second, with the same value and calls. -/
abbrev Followed (o o' : Outcome α) : Prop := Mirrored Coupling.identity.journals Eq o o'

theorem Paired.agrees (h : Paired Coupling.identity.journals Eq o o') : o.Agrees o' := by
  cases o <;> cases o' <;> exact h

theorem agrees_iff : o.Agrees o' ↔ o.Followed o' ∧ o'.Followed o := by
  constructor
  · intro h
    cases o <;> cases o' <;> try exact h.elim
    · obtain ⟨rfl, hcalls⟩ := h
      exact ⟨.returned rfl hcalls, .returned rfl hcalls.symm⟩
    · obtain ⟨rfl, hcalls⟩ := h
      exact ⟨.raised _ hcalls, .raised _ hcalls.symm⟩
    · exact ⟨.exhausted _, .exhausted _⟩
  · rintro ⟨h, h'⟩
    exact (h.paired h').agrees

theorem Agrees.symm (h : o.Agrees o') : o'.Agrees o :=
  agrees_iff.mpr (agrees_iff.mp h).symm

theorem Mirrored.trans (h : o.Followed o') (h' : o'.Followed o'') : o.Followed o'' :=
  h.comp h' (fun _ _ _ => Eq.trans) fun _ _ _ => Eq.trans

end Outcome

namespace Run

variable {α : Type} {x y : Nat → Run α}

/-- Whatever the journal, the two agree from some amount of fuel on. -/
def Alike (x y : Nat → Run α) : Prop :=
  ∀ j, ∃ n, ∀ fuel, n ≤ fuel → (x fuel j).Agrees (y fuel j)

theorem Alike.symm (h : Alike x y) : Alike y x := by
  intro j
  obtain ⟨n, hn⟩ := h j
  exact ⟨n, fun fuel hfuel => (hn fuel hfuel).symm⟩

theorem alike_iff (hx : Rising x) (hy : Rising y) :
    Alike x y ↔ ∀ j, (limit x j).Agrees (limit y j) := by
  refine forall_congr' fun j => ?_
  obtain ⟨n, hn⟩ := hx.settles j
  obtain ⟨m, hm⟩ := hy.settles j
  constructor
  · rintro ⟨k, hk⟩
    have hagree := hk (max k (max n m)) (by omega)
    rwa [hn _ (by omega), hm _ (by omega)] at hagree
  · intro hagree
    refine ⟨max n m, fun fuel hfuel => ?_⟩
    rwa [hn fuel (by omega), hm fuel (by omega)]

/-- From two journals with the same calls, the two agree from some amount of fuel on. -/
theorem exists_fuel_agrees (hx : Rising x) (hy : Rising y)
    (h : ∀ fuel, Mirrors Coupling.identity.journals Eq (x fuel) (limit y))
    (h' : ∀ fuel, Mirrors Coupling.identity.journals Eq (y fuel) (limit x)) {j k : Journal}
    (hjk : j.calls = k.calls) : ∃ n, ∀ fuel, n ≤ fuel → (x fuel j).Agrees (y fuel k) := by
  obtain ⟨n, hn⟩ := exists_fuel_paired hx hy h h' hjk hjk.symm
  exact ⟨n, fun fuel hfuel => (hn fuel hfuel).agrees⟩

theorem alike_of_mirrors (hx : Rising x) (hy : Rising y)
    (h : ∀ fuel, Mirrors Coupling.identity.journals Eq (x fuel) (limit y))
    (h' : ∀ fuel, Mirrors Coupling.identity.journals Eq (y fuel) (limit x)) : Alike x y :=
  fun _ => exists_fuel_agrees hx hy h h' rfl

end Run

namespace Grammar

/-- On every state that has not failed, the two grammars do the same. -/
def Alike (rules : Rules) (g : Grammar) (rules' : Rules) (g' : Grammar) : Prop :=
  ∀ s, s.isError = false →
    Run.Alike (fun fuel => g.parser rules fuel s) (fun fuel => g'.parser rules' fuel s)

variable {rules rules' : Rules} {g g' : Grammar}

theorem Alike.symm (h : Alike rules g rules' g') : Alike rules' g' rules g := by
  intro s hs
  exact (h s hs).symm

/-! ### Being alike and mirroring each other -/

/-- Neither the log nor the debug switch is read, except to write to the log. -/
theorem parser_mirrors_meaning (rules : Rules) (fuel : Nat) (g : Grammar) :
    Coupling.identity.Mirrors (g.parser rules fuel) (g.meaning rules) := by
  have hnothing : Coupling.identity.Mirrors ((g.rewrite id).parser (rules.rewrite id) fuel)
      ((g.rewrite id).meaning (rules.rewrite id)) := mirrors_rewrite (fun _ _ _ h => h) fuel g
  rwa [rewrite_id, rules_rewrite_id] at hnothing

theorem Alike.mirrors (h : Alike rules g rules' g') (fuel : Nat) :
    Coupling.identity.Mirrors (g.parser rules fuel) (g'.meaning rules') := by
  rintro s t ⟨rfl, hok⟩ j k hjk
  have hself := parser_mirrors_meaning rules fuel g s s ⟨rfl, hok⟩ j k hjk
  have hboth := (Run.alike_iff ((parser_rising rules g).apply s)
    ((parser_rising rules' g').apply s)).mp (h s hok) k
  exact hself.trans (Outcome.agrees_iff.mp hboth).1

theorem alike_of_mirrors
    (h : ∀ fuel, Coupling.identity.Mirrors (g.parser rules fuel) (g'.meaning rules'))
    (h' : ∀ fuel, Coupling.identity.Mirrors (g'.parser rules' fuel) (g.meaning rules)) :
    Alike rules g rules' g' := by
  intro s hs
  refine Run.alike_of_mirrors ((parser_rising rules g).apply s)
    ((parser_rising rules' g').apply s) (fun fuel => ?_) fun fuel => ?_
  · exact h fuel s s ⟨rfl, hs⟩
  · exact h' fuel s s ⟨rfl, hs⟩

theorem Alike.exists_fuel_agrees (h : Alike rules g rules' g') {s : State} {j k : Journal}
    (hs : s.isError = false) (hjk : j.calls = k.calls) : ∃ n, ∀ fuel, n ≤ fuel →
      (g.parser rules fuel s j).Agrees (g'.parser rules' fuel s k) :=
  Run.exists_fuel_agrees ((parser_rising rules g).apply s) ((parser_rising rules' g').apply s)
    (fun fuel => h.mirrors fuel s s ⟨rfl, hs⟩) (fun fuel => h.symm.mirrors fuel s s ⟨rfl, hs⟩) hjk

/-! ### Runs on a text -/

theorem run_rising (rules : Rules) (g : Grammar) (text : Text) :
    Run.Rising fun fuel => g.run rules fuel text := by
  intro fuel
  refine .bind (.refl _) fun _ => ?_
  exact .bind (parser_succ rules fuel g _) fun _ => .refl _

theorem limit_run (rules : Rules) (g : Grammar) (text : Text) :
    Run.limit (fun fuel => g.run rules fuel text) = (do
      Run.debugLine (g.name ++ " start: " ++ toString text.size ++ " characters of input")
      let s ← g.meaning rules (State.initial text)
      Run.debugLine (run.closingLine g s)
      pure s) := by
  have hparser := (parser_rising rules g).apply (State.initial text)
  refine (Run.limit_bind_right _ fun _ => ?_).trans ?_
  · exact hparser.bind fun _ => .const _
  · exact bind_congr fun _ => Run.limit_bind_left hparser _

theorem Alike.mirrors_run (h : Alike rules g rules' g') (text : Text) (fuel : Nat) :
    Run.Mirrors Coupling.identity.journals Eq (g.run rules fuel text)
      (Run.limit fun fuel => g'.run rules' fuel text) := by
  rw [limit_run]
  refine .bind (Coupling.identity.mirrors_debugLine _ _) fun _ _ _ => ?_
  refine .bind (h.mirrors fuel _ _ ⟨rfl, rfl⟩) fun s t hst => ?_
  refine .bind (Coupling.identity.mirrors_debugLine _ _) fun _ _ _ => ?_
  exact .pure hst

theorem Alike.run_exists_fuel_agrees (h : Alike rules g rules' g') (text : Text) {j k : Journal}
    (hjk : j.calls = k.calls) : ∃ n, ∀ fuel, n ≤ fuel →
      (g.run rules fuel text j).Agrees (g'.run rules' fuel text k) :=
  Run.exists_fuel_agrees (run_rising rules g text) (run_rising rules' g' text)
    (h.mirrors_run text) (h.symm.mirrors_run text) hjk

theorem Alike.run (h : Alike rules g rules' g') (text : Text) :
    Run.Alike (fun fuel => g.run rules fuel text) (fun fuel => g'.run rules' fuel text) :=
  fun _ => h.run_exists_fuel_agrees text rfl

/-! ### Filling holes -/

/-- At a hole, the grammar that is put there; at any other node, the node. -/
def plug (hole : String) (p : Grammar) : Grammar → Grammar
  | .rule name => if name = hole then p else .rule name
  | g => g

/-- The context with every hole filled; holes are the references to a rule of the
    given name. -/
def fill (context : Grammar) (hole : String) (p : Grammar) : Grammar :=
  context.rewrite (plug hole p)

end Grammar

def Rules.fill (rules : Rules) (hole : String) (p : Grammar) : Rules :=
  rules.rewrite (Grammar.plug hole p)

namespace Grammar

variable {rules : Rules} {hole : String} {p q : Grammar}

theorem mirrors_fill (h : Alike (rules.fill hole p) p (rules.fill hole q) q) (fuel : Nat)
    (context : Grammar) :
    Coupling.identity.Mirrors ((context.fill hole p).parser (rules.fill hole p) fuel)
      ((context.fill hole q).meaning (rules.fill hole q)) := by
  refine mirrors_rewrite (fun fuel node _ hnode => ?_) fuel context
  cases node with
  | rule name =>
    simp only [mapParts, plug] at hnode ⊢
    by_cases hname : name = hole
    · rw [if_pos hname, if_pos hname]
      exact h.mirrors fuel
    · rw [if_neg hname, if_neg hname]
      exact hnode
  | _ => exact hnode

/-- **Grammars that are alike on the states that have not failed are alike in every
    context.** -/
theorem alike_fill (h : Alike (rules.fill hole p) p (rules.fill hole q) q) (context : Grammar) :
    Alike (rules.fill hole p) (context.fill hole p) (rules.fill hole q)
      (context.fill hole q) :=
  alike_of_mirrors (fun fuel => mirrors_fill h fuel context)
    fun fuel => mirrors_fill h.symm fuel context

/-! ### Alarms -/

/-- The grammar with an alarm in front of it, which raises a fault when it is given a
    failed state. -/
def alarmed (fault : Fault) (g : Grammar) : Grammar :=
  .chain (.custom "alarm" fun s => if s.isError then Response.raise fault else pure s)
    (fun v => pure v) fun _ => g

variable {fault : Fault} {g : Grammar} {s : State}

theorem chain_alarm (r : Parser) (hs : s.isError = false) :
    Parser.chain
      (fun s => (if s.isError then Response.raise fault else pure s : Response State).run)
      (fun v => do
        let _ ← (pure v : Response Value).run
        pure r) s = r s := by
  funext j
  have hpass : (if s.isError then Response.raise fault else pure s : Response State).run j
      = .returned s j := by
    rw [hs, if_neg Bool.false_ne_true]
    rfl
  rw [Parser.chain, Run.bind_returned hpass, hs, if_neg Bool.false_ne_true]
  rfl

theorem meaning_alarmed (g : Grammar) (hs : s.isError = false) :
    (alarmed fault g).meaning rules s = g.meaning rules s := by
  rw [alarmed, meaning_chain, meaning_custom]
  exact chain_alarm (g.meaning rules) hs

theorem parser_alarmed_extends (g : Grammar) (hs : s.isError = false) (fuel : Nat) :
    Run.Extends ((alarmed fault g).parser rules fuel s) (g.parser rules fuel s) := by
  cases fuel with
  | zero => exact .of_exhausted _
  | succ fuel =>
    cases fuel with
    | zero => exact .of_exhausted _
    | succ fuel =>
      have hpass : (alarmed fault g).parser rules (fuel + 2) s = g.parser rules (fuel + 1) s := by
        simp only [alarmed, parser]
        exact chain_alarm (g.parser rules (fuel + 1)) hs
      rw [hpass]
      exact parser_succ rules (fuel + 1) g s

/-- **No alarm ever goes off**, wherever in a grammar and in its rules they stand. -/
theorem alike_rewrite_alarmed (fault : Fault) (rules : Rules) (g : Grammar) :
    Alike (rules.rewrite (alarmed fault)) (g.rewrite (alarmed fault)) rules g := by
  have hleft : ∀ fuel, Coupling.identity.Mirrors
      ((g.rewrite (alarmed fault)).parser (rules.rewrite (alarmed fault)) fuel)
      ((g.rewrite id).meaning (rules.rewrite id)) := by
    intro fuel
    refine mirrors_rewrite (fun fuel node _ hnode => ?_) fuel g
    intro s t hst
    exact (hnode s t hst).of_extends (parser_alarmed_extends _ hst.2 fuel)
  have hright : ∀ fuel, Coupling.identity.Mirrors
      ((g.rewrite id).parser (rules.rewrite id) fuel)
      ((g.rewrite (alarmed fault)).meaning (rules.rewrite (alarmed fault))) := by
    intro fuel
    refine mirrors_rewrite (fun fuel node _ hnode => ?_) fuel g
    rintro s t ⟨rfl, hok⟩
    rw [meaning_alarmed _ hok]
    exact hnode s s ⟨rfl, hok⟩
  rw [rewrite_id, rules_rewrite_id] at hleft hright
  exact alike_of_mirrors hleft hright

/-! ### User-written steps -/

/-- The step, except that it leaves a failed state as it is. -/
def guarded (step : State → Response State) : State → Response State := fun s =>
  if s.isError then pure s else step s

theorem alike_of_step (rules rules' : Rules) (name name' : String)
    {step step' : State → Response State} (h : ∀ s, s.isError = false → step s = step' s) :
    Alike rules (.custom name step) rules' (.custom name' step') := by
  intro s hs j
  refine ⟨1, fun fuel hfuel => ?_⟩
  obtain ⟨n, rfl⟩ := Nat.exists_eq_add_of_le' hfuel
  simp only [parser]
  rw [h s hs, Outcome.agrees_iff]
  have hself := Coupling.identity.mirrors_response (step' s) j j rfl
  exact ⟨hself, hself⟩

theorem alike_guarded (rules rules' : Rules) (name : String) (step : State → Response State) :
    Alike rules (.custom name step) rules' (.custom name (guarded step)) := by
  apply alike_of_step
  intro s hs
  rw [guarded, hs, if_neg Bool.false_ne_true]

/-! ### After a failure -/

theorem map_failed {f : Value → Response Value} {fuel : Nat} {t : State} {j k : Journal}
    (h : g.parser rules fuel s j = .returned t k) (ht : t.isError = true) :
    (map g f).parser rules (fuel + 1) s j = .returned t k := by
  simp only [parser]
  exact Parser.map_failed h ht

theorem chain_failed {prepare : Value → Response Value} {next : Value → Grammar} {fuel : Nat}
    {t : State} {j k : Journal} (h : g.parser rules fuel s j = .returned t k)
    (ht : t.isError = true) : (chain g prepare next).parser rules (fuel + 1) s j = .returned t k := by
  simp only [parser]
  exact Parser.chain_failed h ht

theorem sequence_append_failed {parts rest : List Grammar} {fuel : Nat} {t : State}
    {j k : Journal} (h : (sequence parts).parser rules fuel s j = .returned t k)
    (ht : t.isError = true) :
    (sequence (parts ++ rest)).parser rules fuel s j = .returned t k := by
  cases fuel with
  | zero => cases h
  | succ fuel =>
    simp only [parser, List.map_append] at h ⊢
    exact Parser.sequence_append_failed ht h

/-- **No parser is given a failed state.**  What two grammars do on failed states makes
    no difference in any context, on any state that has not failed and so in any run; a
    user-written step is as good as one that leaves failed states alone; and alarms in
    front of all parsers never go off.  Behind a failure no function is applied, no
    continuation is asked and no further part of a sequence is touched, whatever they
    are. -/
theorem no_parser_given_failed_state (rules : Rules) (context : Grammar) (hole : String)
    (p q : Grammar) (h : Alike (rules.fill hole p) p (rules.fill hole q) q) :
    Alike (rules.fill hole p) (context.fill hole p)
        (rules.fill hole q) (context.fill hole q) ∧
      (∀ text,
        Run.Alike (fun fuel => (context.fill hole p).run (rules.fill hole p) fuel text)
          (fun fuel => (context.fill hole q).run (rules.fill hole q) fuel text)) ∧
      (∀ name step,
        Alike (rules.fill hole (.custom name step)) (context.fill hole (.custom name step))
          (rules.fill hole (.custom name (guarded step)))
          (context.fill hole (.custom name (guarded step)))) ∧
      (∀ fault,
        Alike (rules.rewrite (alarmed fault)) (context.rewrite (alarmed fault))
          rules context) ∧
      (∀ fuel s j t k, context.parser rules fuel s j = .returned t k → t.isError = true →
        (∀ f, (map context f).parser rules (fuel + 1) s j = .returned t k) ∧
        ∀ prepare next,
          (chain context prepare next).parser rules (fuel + 1) s j = .returned t k) ∧
      ∀ parts rest fuel s j t k,
        (sequence parts).parser rules fuel s j = .returned t k → t.isError = true →
          (sequence (parts ++ rest)).parser rules fuel s j = .returned t k := by
  have hcontext := alike_fill h context
  refine ⟨hcontext, hcontext.run, ?_, ?_, ?_, ?_⟩
  · intro name step
    exact alike_fill (alike_guarded _ _ name step) context
  · intro fault
    exact alike_rewrite_alarmed fault rules context
  · intro fuel s j t k hfailed ht
    constructor
    · intro f
      exact map_failed hfailed ht
    · intro prepare next
      exact chain_failed hfailed ht
  · intro parts rest fuel s j t k hfailed ht
    exact sequence_append_failed hfailed ht

/-- Entries of a list, each behind a letter. -/
def entries : Rules := [("entry", .sequence [.literal "a", .rule "hole"])]

/-- A list of entries whose second half is a step that succeeds on failed states as
    well: it is as good as one that does not. -/
theorem recover_rescues_no_entry :
    Alike (entries.fill "hole" Probe.recover.grammar)
        ((sepBy (.literal ",") (ref "entry")).fill "hole" Probe.recover.grammar)
        (entries.fill "hole" (.custom "recover" (guarded fun s => pure (Probe.recover.step s))))
        ((sepBy (.literal ",") (ref "entry")).fill "hole"
          (.custom "recover" (guarded fun s => pure (Probe.recover.step s)))) ∧
      ∀ s, (Probe.recover.step s).isError = false := by
  have halike := alike_guarded
    (entries.fill "hole" Probe.recover.grammar)
    (entries.fill "hole" (.custom "recover" (guarded fun s => pure (Probe.recover.step s))))
    "recover" fun s => pure (Probe.recover.step s)
  constructor
  · exact (no_parser_given_failed_state entries (sepBy (.literal ",") (ref "entry")) "hole"
      Probe.recover.grammar _ halike).1
  · intro s
    rfl

end Grammar

end Descent
