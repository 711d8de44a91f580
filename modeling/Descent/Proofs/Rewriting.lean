/-
  Descent/Proofs/Rewriting.lean
  =============================
  **Rewriting a grammar at every node, and what that leaves unchanged.**

  `rewrite f g` rewrites the parts of `g` and then applies `f` to what has become of
  `g`; what `f` puts in is not rewritten again.  A table is rewritten rule by rule.

  Two rewritings of one grammar are compared node by node (`mirrors_rewrite_of`), under
  any coupling that the nodes respect as far as they have a say of their own
  (`MirroredAt`).  At each node it is given that the parts mirror each other, and that
  the two nodes do before `f` and `f'` are applied there, and to be shown that they
  still do afterwards.  The recursion through the rules is in the induction on fuel and
  does not show.
-/
import Descent.Proofs.Leaves
import Descent.Proofs.Parts

namespace Descent

namespace Grammar

/-- The grammar with each of its immediate parts replaced. -/
def mapParts (h : Grammar → Grammar) : Grammar → Grammar
  | .sequence parts => .sequence (parts.map h)
  | .choice alternatives => .choice (alternatives.map h)
  | .many item => .many (h item)
  | .many1 item => .many1 (h item)
  | .sepBy separator value => .sepBy (h separator) (h value)
  | .sepBy1 separator value => .sepBy1 (h separator) (h value)
  | .traced label body => .traced label (h body)
  | .map body f => .map (h body) f
  | .chain body prepare next => .chain (h body) prepare fun v => h (next v)
  | .errorMap body handler => .errorMap (h body) handler
  | .named body name => .named (h body) name
  | .lazy touch body => .lazy touch (h body)
  | g => g

mutual

/-- The grammar with `f` applied at every node, from the leaves up. -/
def rewrite (f : Grammar → Grammar) : Grammar → Grammar
  | .sequence parts => f (.sequence (rewriteAll f parts))
  | .choice alternatives => f (.choice (rewriteAll f alternatives))
  | .many item => f (.many (rewrite f item))
  | .many1 item => f (.many1 (rewrite f item))
  | .sepBy separator value => f (.sepBy (rewrite f separator) (rewrite f value))
  | .sepBy1 separator value => f (.sepBy1 (rewrite f separator) (rewrite f value))
  | .traced label body => f (.traced label (rewrite f body))
  | .map body g => f (.map (rewrite f body) g)
  | .chain body prepare next => f (.chain (rewrite f body) prepare fun v => rewrite f (next v))
  | .errorMap body handler => f (.errorMap (rewrite f body) handler)
  | .named body name => f (.named (rewrite f body) name)
  | .lazy touch body => f (.lazy touch (rewrite f body))
  | .custom name step => f (.custom name step)
  | .literal text => f (.literal text)
  | .regex name pattern => f (.regex name pattern)
  | .succeed value => f (.succeed value)
  | .fail message => f (.fail message)
  | .endOfInput => f .endOfInput
  | .trace label => f (.trace label)
  | .rule name => f (.rule name)

def rewriteAll (f : Grammar → Grammar) : List Grammar → List Grammar
  | [] => []
  | g :: gs => rewrite f g :: rewriteAll f gs

end

end Grammar

def Rules.rewrite (f : Grammar → Grammar) (rules : Rules) : Rules :=
  rules.map fun rule => (rule.1, rule.2.rewrite f)

namespace Grammar

variable {f f' : Grammar → Grammar} {rules : Rules}

theorem rewriteAll_eq_map (gs : List Grammar) : rewriteAll f gs = gs.map (rewrite f) := by
  induction gs with
  | nil => rfl
  | cons g gs ih => rw [rewriteAll, List.map_cons, ih]

theorem rewrite_eq (g : Grammar) : g.rewrite f = f (g.mapParts (rewrite f)) := by
  cases g with
  | sequence parts => rw [rewrite, mapParts, rewriteAll_eq_map]
  | choice alternatives => rw [rewrite, mapParts, rewriteAll_eq_map]
  | _ => simp only [rewrite, mapParts]

theorem map_eq_self {h : Grammar → Grammar} {gs : List Grammar} (hall : ∀ g ∈ gs, h g = g) :
    gs.map h = gs :=
  (List.map_congr_left hall).trans (List.map_id gs)

theorem mapParts_eq_self {h : Grammar → Grammar} (g : Grammar) (hparts : ∀ p, Part p g → h p = p) :
    g.mapParts h = g := by
  cases g with
  | sequence parts => rw [mapParts, map_eq_self fun p hp => hparts p (.sequence hp)]
  | choice alternatives => rw [mapParts, map_eq_self fun p hp => hparts p (.choice hp)]
  | many item => rw [mapParts, hparts item (.many item)]
  | many1 item => rw [mapParts, hparts item (.many1 item)]
  | sepBy separator value =>
    rw [mapParts, hparts separator (.sepBySeparator separator value),
      hparts value (.sepByValue separator value)]
  | sepBy1 separator value =>
    rw [mapParts, hparts separator (.sepBy1Separator separator value),
      hparts value (.sepBy1Value separator value)]
  | traced label body => rw [mapParts, hparts body (.traced label body)]
  | map body g => rw [mapParts, hparts body (.map body g)]
  | chain body prepare next =>
    have hnext : (fun v => h (next v)) = next :=
      funext fun v => hparts (next v) (.chainNext body prepare next v)
    rw [mapParts, hparts body (.chainBody body prepare next), hnext]
  | errorMap body handler => rw [mapParts, hparts body (.errorMap body handler)]
  | named body name => rw [mapParts, hparts body (.named body name)]
  | lazy touch body => rw [mapParts, hparts body (.lazy touch body)]
  | _ => rfl

/-- Nothing changes where every node is left as it is. -/
theorem rewrite_id (g : Grammar) : g.rewrite id = g := by
  induction g using induction_on_parts with
  | step g ih => rw [rewrite_eq, id, mapParts_eq_self g ih]

theorem rules_rewrite_id (rules : Rules) : rules.rewrite id = rules := by
  have hrule : ∀ rule : String × Grammar, (rule.1, rule.2.rewrite id) = rule := by
    intro rule
    rw [rewrite_id]
  exact List.map_id'' hrule rules

theorem lookup_rewrite (rules : Rules) (name : String) :
    (rules.rewrite f).lookup name = (rules.lookup name).map (rewrite f) := by
  induction rules with
  | nil => rfl
  | cons rule rules ih =>
    rw [Rules.rewrite, List.map_cons, List.lookup_cons, List.lookup_cons]
    cases name == rule.1 with
    | true => rfl
    | false => exact ih

/-! ### Comparing two rewritings -/

/-- The coupling is respected at this node, as far as the node itself decides it. -/
def MirroredAt (c : Coupling) : Grammar → Prop
  | .custom _ step => c.Mirrors (fun s => (step s).run) fun s => (step s).run
  | .literal text => c.Mirrors (Parser.literal text) (Parser.literal text)
  | .regex name pattern => c.Mirrors (Parser.regex name pattern) (Parser.regex name pattern)
  | .endOfInput => c.Mirrors Parser.endOfInput Parser.endOfInput
  | .trace label => c.Mirrors (Parser.trace label) (Parser.trace label)
  | .errorMap _ handler => ∀ p q, c.Mirrors p q →
      c.Mirrors (p.errorMap fun e cursor => (handler e cursor).run)
        (q.errorMap fun e cursor => (handler e cursor).run)
  | _ => True

section Compare

variable {c : Coupling} {h h' : Grammar → Grammar} {rules' : Rules} {fuel : Nat} {g : Grammar}

/-- With less fuel there are fewer answers to mirror. -/
theorem mirrors_of_succ {q : Parser} (hg : c.Mirrors (g.parser rules (fuel + 1)) q) :
    c.Mirrors (g.parser rules fuel) q := by
  intro s t hst
  exact (hg s t hst).of_extends (parser_succ rules fuel g s)

/-- **One node**: what mirrors each other in the parts does so in the whole.  A reference
    has no parts, and what it stands for is looked up in different tables. -/
theorem mirrors_mapParts (hat : g.MirroredAt c)
    (hparts : ∀ p, Part p g → c.Mirrors ((h p).parser rules fuel) ((h' p).meaning rules'))
    (href : ∀ name, g = .rule name →
      c.Mirrors ((rule name).parser rules (fuel + 1)) ((rule name).meaning rules')) :
    c.Mirrors ((g.mapParts h).parser rules (fuel + 1)) ((g.mapParts h').meaning rules') := by
  have hlist : ∀ gs : List Grammar, (∀ p ∈ gs, Part p g) → List.Forall₂ c.Mirrors
      ((gs.map h).map (parser rules fuel)) ((gs.map h').map (meaning rules')) := by
    intro gs hgs
    rw [List.map_map, List.map_map, List.forall₂_map_left_iff, List.forall₂_map_right_iff,
      List.forall₂_same]
    exact fun p hp => hparts p (hgs p hp)
  cases g with
  | custom name step =>
    simp only [mapParts, meaning_custom]
    exact hat
  | literal text =>
    simp only [mapParts, meaning_literal]
    exact hat
  | regex name pattern =>
    simp only [mapParts, meaning_regex]
    exact hat
  | succeed value =>
    simp only [mapParts, meaning_succeed]
    exact c.mirrors_succeed value
  | fail message =>
    simp only [mapParts, meaning_fail]
    exact c.mirrors_fail message message fun s t hst => c.fail hst .message fun _ => message
  | endOfInput =>
    simp only [mapParts, meaning_endOfInput]
    exact hat
  | trace label =>
    simp only [mapParts, meaning_trace]
    exact hat
  | sequence parts =>
    simp only [mapParts, meaning_sequence]
    exact c.mirrors_sequence (hlist parts fun _ => .sequence)
  | choice alternatives =>
    simp only [mapParts, meaning_choice]
    exact c.mirrors_choice (hlist alternatives fun _ => .choice)
  | many item =>
    simp only [mapParts, meaning_many]
    exact c.mirrors_many (hparts item (.many item)) fuel
  | many1 item =>
    simp only [mapParts, meaning_many1]
    exact c.mirrors_many1 (hparts item (.many1 item)) fuel
  | sepBy separator value =>
    simp only [mapParts, meaning_sepBy]
    exact c.mirrors_sepBy (hparts separator (.sepBySeparator separator value))
      (hparts value (.sepByValue separator value)) fuel
  | sepBy1 separator value =>
    simp only [mapParts, meaning_sepBy1]
    exact c.mirrors_sepBy1 (hparts separator (.sepBy1Separator separator value))
      (hparts value (.sepBy1Value separator value)) fuel
  | traced label body =>
    simp only [mapParts, meaning_traced]
    exact c.mirrors_traced label label (hparts body (.traced label body))
  | map body f =>
    simp only [mapParts, meaning_map, parser]
    exact c.mirrors_map f (hparts body (.map body f))
  | chain body prepare next =>
    simp only [mapParts, meaning_chain, parser]
    refine c.mirrors_chain (hparts body (.chainBody body prepare next)) fun v => ?_
    refine .bind (c.mirrors_response (prepare v)) fun w w' hw => ?_
    subst hw
    exact .pure (hparts (next w) (.chainNext body prepare next w))
  | errorMap body handler =>
    simp only [mapParts, meaning_errorMap, parser]
    exact hat _ _ (hparts body (.errorMap body handler))
  | named body name =>
    simp only [mapParts, meaning_named]
    exact hparts body (.named body name)
  | lazy touch body =>
    simp only [mapParts, meaning_lazy]
    intro s t hst
    have hcall : (Grammar.lazy touch (h body)).parser rules (fuel + 1) s
        = touch.run >>= fun _ => (h body).parser rules fuel s := by
      simp only [parser, Parser.lazy, bind_assoc, pure_bind]
    rw [hcall]
    refine .bind (c.mirrors_response touch) fun _ _ _ => ?_
    exact hparts body (.lazy touch body) s t hst
  | rule name => exact href name rfl

/-- A reference costs fuel, so an induction on fuel reaches the body of the rule. -/
theorem mirrors_rule {name : String}
    (hbody : ∀ body, rules.lookup name = some body →
      c.Mirrors ((body.rewrite f).parser (rules.rewrite f) fuel)
        ((body.rewrite f').meaning (rules.rewrite f'))) :
    c.Mirrors ((rule name).parser (rules.rewrite f) (fuel + 1))
      ((rule name).meaning (rules.rewrite f')) := by
  cases hname : rules.lookup name with
  | none =>
    have hleft : (rules.rewrite f).lookup name = none := by
      rw [lookup_rewrite, hname, Option.map_none]
    have hright : (rules.rewrite f').lookup name = none := by
      rw [lookup_rewrite, hname, Option.map_none]
    rw [meaning_rule_of_none hright]
    simp only [parser, hleft]
    exact fun s t _ => .raise _
  | some body =>
    have hleft : (rules.rewrite f).lookup name = some (body.rewrite f) := by
      rw [lookup_rewrite, hname, Option.map_some]
    have hright : (rules.rewrite f').lookup name = some (body.rewrite f') := by
      rw [lookup_rewrite, hname, Option.map_some]
    rw [meaning_rule_of_some hright]
    simp only [parser, hleft]
    exact hbody body hname

/-- **Two rewritings mirror each other** under a coupling that the nodes respect, if they
    do at each node given that they do before the node itself is rewritten. -/
theorem mirrors_rewrite_of {ok : Grammar → Prop} (hat : ∀ node, ok node → node.MirroredAt c)
    (hnode : ∀ (fuel : Nat) (node : Grammar), ok node →
      (∀ p, Part p node → c.Mirrors ((p.rewrite f).parser (rules.rewrite f) fuel)
        ((p.rewrite f').meaning (rules.rewrite f'))) →
      c.Mirrors ((node.mapParts (rewrite f)).parser (rules.rewrite f) fuel)
        ((node.mapParts (rewrite f')).meaning (rules.rewrite f')) →
      c.Mirrors ((f (node.mapParts (rewrite f))).parser (rules.rewrite f) fuel)
        ((f' (node.mapParts (rewrite f'))).meaning (rules.rewrite f')))
    (hrules : rules.Everywhere ok) (hg : Everywhere ok g) (fuel : Nat) :
    c.Mirrors ((g.rewrite f).parser (rules.rewrite f) fuel)
      ((g.rewrite f').meaning (rules.rewrite f')) := by
  induction fuel generalizing g with
  | zero => exact fun s t _ => .exhausted _
  | succ fuel ih =>
    -- A rewriting may leave a part in the place of the node, so the parts are needed
    -- with the same fuel as well.
    induction hg with
    | @intro node here parts ihparts =>
      rw [rewrite_eq, rewrite_eq]
      refine hnode (fuel + 1) node here ihparts ?_
      refine mirrors_mapParts (hat node here) (fun p hp => ih (parts p hp)) fun name _ => ?_
      exact mirrors_rule fun body hlookup => ih (hrules name body hlookup)

/-- **A grammar mirrors itself** under a coupling that is respected at every node that it
    leads to. -/
theorem mirrors_of_throughout {ok : Grammar → Prop} (hat : ∀ node, ok node → node.MirroredAt c)
    (hg : Throughout rules ok g) (fuel : Nat) :
    c.Mirrors (g.parser rules fuel) (g.meaning rules) := by
  induction fuel generalizing g with
  | zero => exact fun s t _ => .exhausted _
  | succ fuel ih =>
    have hself : g.mapParts id = g := mapParts_eq_self g fun p _ => rfl
    have h : c.Mirrors ((g.mapParts id).parser rules (fuel + 1)) ((g.mapParts id).meaning rules) := by
      apply mirrors_mapParts (hat g hg.here) fun p hp => ih (hg.part hp)
      rintro name rfl
      cases hname : rules.lookup name with
      | none =>
        rw [meaning_rule_of_none hname]
        simp only [parser, hname]
        exact fun s t _ => .raise _
      | some body =>
        rw [meaning_rule_of_some hname]
        simp only [parser, hname]
        exact ih (hg.rule hname)
    rwa [hself] at h

theorem meaning_mirrors_of_throughout {ok : Grammar → Prop}
    (hat : ∀ node, ok node → node.MirroredAt c) (hg : Throughout rules ok g) :
    c.Mirrors (g.meaning rules) (g.meaning rules) :=
  fun s t hst => .limit fun fuel => mirrors_of_throughout hat hg fuel s t hst

/-- As `mirrors_of_throughout`, if all nodes of all rules respect the coupling. -/
theorem parser_mirrors_meaning_of {ok : Grammar → Prop}
    (hat : ∀ node, ok node → node.MirroredAt c) (hrules : rules.Everywhere ok)
    (hg : Everywhere ok g) (fuel : Nat) : c.Mirrors (g.parser rules fuel) (g.meaning rules) :=
  mirrors_of_throughout hat (.of_everywhere hrules hg) fuel

/-- Where each of two grammars mirrors the other, their answers make pairs. -/
theorem exists_fuel_paired {c' : Coupling} {g' : Grammar}
    (hg : ∀ fuel, c.Mirrors (g.parser rules fuel) (g'.meaning rules'))
    (hg' : ∀ fuel, c'.Mirrors (g'.parser rules' fuel) (g.meaning rules)) {s t : State}
    (hst : c.before s t) (hts : c'.before t s) {j k : Journal} (hjk : c.journals j k)
    (hkj : c'.journals k j) :
    ∃ n, ∀ fuel, n ≤ fuel →
      (g.parser rules fuel s j).Paired c.journals c.after (g'.parser rules' fuel t k) :=
  Run.exists_fuel_paired ((parser_rising rules g).apply s) ((parser_rising rules' g').apply t)
    (fun fuel => hg fuel s t hst) (fun fuel => hg' fuel t s hts) hjk hkj

end Compare

/-! ### One and the same state -/

/-- A coupling that relates every state to itself alone is respected by every node. -/
theorem mirroredAt_of_same (c : Coupling) (hbefore : ∀ s t, c.before s t → s = t)
    (hafter : c.after = Eq) (hsees : c.SeesAhead) (g : Grammar) : g.MirroredAt c := by
  cases g with
  | custom name step =>
    intro s t hst
    rw [hbefore s t hst, hafter]
    exact c.mirrors_response (step t)
  | literal text => exact hsees.mirrors_literal text
  | regex name pattern =>
    refine hsees.mirrors_regex name (Coupling.sameMatches_of_eq (fun s t hst => ?_) pattern)
    rw [hbefore s t hst]
    exact ⟨rfl, rfl⟩
  | endOfInput => exact hsees.mirrors_endOfInput
  | trace label =>
    apply c.mirrors_trace label label
    intro s t hst
    rw [hafter]
    exact hbefore s t hst
  | errorMap body handler =>
    intro p q h
    refine c.mirrors_errorMap handler h (fun s t hst => ?_) fun s t e hst => ?_
    · rw [hafter] at hst
      rw [hst]
      exact ⟨rfl, rfl⟩
    · rw [hafter] at hst ⊢
      rw [hst]
  | _ => exact True.intro

/-- On one and the same state, every node does the same in both evaluations. -/
theorem mirroredAt_identity (g : Grammar) : g.MirroredAt Coupling.identity :=
  mirroredAt_of_same .identity (fun _ _ h => h.1) rfl Coupling.identity_seesAhead g

theorem everywhere_true (g : Grammar) : Everywhere (fun _ => True) g := by
  induction g using induction_on_parts with
  | step g ih => exact .intro True.intro ih

/-- Under such a coupling every grammar mirrors itself. -/
theorem meaning_mirrors_of_same (c : Coupling) (hbefore : ∀ s t, c.before s t → s = t)
    (hafter : c.after = Eq) (hsees : c.SeesAhead) (g : Grammar) :
    c.Mirrors (g.meaning rules) (g.meaning rules) :=
  meaning_mirrors_of_throughout (fun node _ => mirroredAt_of_same c hbefore hafter hsees node)
    (.of_everywhere (fun _ body _ => everywhere_true body) (everywhere_true g))

/-- What the journal holds decides nothing. -/
theorem meaning_mirrors_regardless (g : Grammar) :
    Coupling.identity.regardless.Mirrors (g.meaning rules) (g.meaning rules) :=
  meaning_mirrors_of_same Coupling.identity.regardless (fun _ _ h => h.1) rfl
    Coupling.identity_seesAhead.regardless g

/-- As `mirrors_rewrite_of`, for evaluations from one and the same state. -/
theorem mirrors_rewrite
    (hnode : ∀ (fuel : Nat) (node : Grammar),
      (∀ p, Part p node →
        Coupling.identity.Mirrors ((p.rewrite f).parser (rules.rewrite f) fuel)
          ((p.rewrite f').meaning (rules.rewrite f'))) →
      Coupling.identity.Mirrors
        ((node.mapParts (rewrite f)).parser (rules.rewrite f) fuel)
        ((node.mapParts (rewrite f')).meaning (rules.rewrite f')) →
      Coupling.identity.Mirrors
        ((f (node.mapParts (rewrite f))).parser (rules.rewrite f) fuel)
        ((f' (node.mapParts (rewrite f'))).meaning (rules.rewrite f')))
    (fuel : Nat) (g : Grammar) :
    Coupling.identity.Mirrors ((g.rewrite f).parser (rules.rewrite f) fuel)
      ((g.rewrite f').meaning (rules.rewrite f')) :=
  mirrors_rewrite_of (fun node _ => mirroredAt_identity node)
    (fun fuel node _ => hnode fuel node) (fun _ body _ => everywhere_true body)
    (everywhere_true g) fuel

end Grammar

end Descent
