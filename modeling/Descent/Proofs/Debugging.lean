/-
  Descent/Proofs/Debugging.lean
  =============================
  **Debugging aids leave no trace in the answer.**

  A grammar is plain when log lines and names of its own are taken off it, and off
  the rules that it refers to.  It has the same answers then, whichever way the
  debug switch stands to begin with and whatever user functions do to it in between
  (`alike_plain`): a switch that is thrown decides what is logged, and what is logged
  is never read.

  The applications that the two are made of correspond to each other
  (`Application.Applies.counterpart`): what the plain grammar does not have is passed
  over, and everything else is applied to the same state.  So a fault comes from one
  and the same user function in both.
-/
import Descent.Proofs.Context
import Descent.Proofs.Silence

namespace Descent

open Relation (ReflTransGen)

namespace Grammar

/-- What is left of the node without log lines around it and without a name. -/
def bare : Grammar → Grammar
  | .traced _ body => body
  | .named body _ => body
  | g => g

/-- The grammar without any `traced` and `named`. -/
def plain (g : Grammar) : Grammar := g.rewrite bare

end Grammar

def Rules.plain (rules : Rules) : Rules := rules.rewrite Grammar.bare

namespace Grammar

variable {rules : Rules}

section Bare

variable {rules' : Rules} {c : Coupling} {h h' : Grammar → Grammar} {fuel : Nat} {node : Grammar}

theorem mirrors_bare
    (hparts : ∀ p, Part p node → c.Mirrors ((h p).parser rules fuel) ((h' p).meaning rules'))
    (hnode : c.Mirrors ((node.mapParts h).parser rules fuel)
      ((node.mapParts h').meaning rules')) :
    c.Mirrors ((node.mapParts h).parser rules fuel) ((bare (node.mapParts h')).meaning rules') := by
  cases node with
  | traced label body =>
    have hbody := hparts body (.traced label body)
    cases fuel with
    | zero => exact fun s t _ => .exhausted _
    | succ fuel => exact c.mirrors_traced_left label (mirrors_of_succ hbody)
  | named body name =>
    have hbody := hparts body (.named body name)
    cases fuel with
    | zero => exact fun s t _ => .exhausted _
    | succ fuel => exact mirrors_of_succ hbody
  | _ => exact hnode

theorem bare_mirrors
    (hparts : ∀ p, Part p node → c.Mirrors ((h p).parser rules fuel) ((h' p).meaning rules'))
    (hnode : c.Mirrors ((node.mapParts h).parser rules fuel)
      ((node.mapParts h').meaning rules')) :
    c.Mirrors ((bare (node.mapParts h)).parser rules fuel) ((node.mapParts h').meaning rules') := by
  cases node with
  | traced label body =>
    simp only [mapParts, meaning_traced]
    exact c.mirrors_traced_right label (hparts body (.traced label body))
  | named body name =>
    simp only [mapParts, meaning_named]
    exact hparts body (.named body name)
  | _ => exact hnode

end Bare

theorem mirrors_plain (rules : Rules) (fuel : Nat) (g : Grammar) :
    Coupling.identity.Mirrors (g.parser rules fuel) (g.plain.meaning rules.plain) := by
  have h : Coupling.identity.Mirrors ((g.rewrite id).parser (rules.rewrite id) fuel)
      ((g.rewrite bare).meaning (rules.rewrite bare)) :=
    mirrors_rewrite (fun _ _ => mirrors_bare) fuel g
  rwa [rewrite_id, rules_rewrite_id] at h

theorem plain_mirrors (rules : Rules) (fuel : Nat) (g : Grammar) :
    Coupling.identity.Mirrors (g.plain.parser rules.plain fuel) (g.meaning rules) := by
  have h : Coupling.identity.Mirrors ((g.rewrite bare).parser (rules.rewrite bare) fuel)
      ((g.rewrite id).meaning (rules.rewrite id)) :=
    mirrors_rewrite (fun _ _ => bare_mirrors) fuel g
  rwa [rewrite_id, rules_rewrite_id] at h

/-- Log lines and names change nothing. -/
theorem alike_plain (rules : Rules) (g : Grammar) : Alike rules g rules.plain g.plain :=
  alike_of_mirrors (fun fuel => mirrors_plain rules fuel g) fun fuel => plain_mirrors rules fuel g

/-! ### What has been reached -/

variable {gs : List Grammar} {s t : State} {j j' k : Journal}

theorem plain_returned {g : Grammar} (hs : s.isError = false) (hj : j.calls = j'.calls)
    (h : g.meaning rules s j = .returned t k) :
    ∃ k', g.plain.meaning rules.plain s j' = .returned t k' ∧ k.calls = k'.calls := by
  have hmirrors := Run.Mirrors.limit fun fuel => mirrors_plain rules fuel g s s ⟨rfl, hs⟩
  obtain ⟨_, k', h', rfl, hk⟩ := hmirrors.returned hj h
  exact ⟨k', h', hk⟩

theorem Threads.ok (h : Threads rules gs s j t k) (hs : s.isError = false) : t.isError = false := by
  induction h with
  | nil => exact hs
  | cons _ ok _ ih => exact ih ok

theorem Threads.plain (h : Threads rules gs s j t k) (hs : s.isError = false)
    (hj : j.calls = j'.calls) :
    ∃ k', Threads rules.plain (gs.map Grammar.plain) s j' t k' ∧ k.calls = k'.calls := by
  induction h generalizing j' with
  | nil s j => exact ⟨j', .nil s j', hj⟩
  | cons h ok _ ih =>
    obtain ⟨l, hfirst, hl⟩ := plain_returned hs hj h
    obtain ⟨k', hrest, hk⟩ := ih ok hl
    exact ⟨k', .cons hfirst ok hrest, hk⟩

theorem Rejected.plain (h : Rejected rules s gs j k) (hs : s.isError = false)
    (hj : j.calls = j'.calls) :
    ∃ k', Rejected rules.plain s (gs.map Grammar.plain) j' k' ∧ k.calls = k'.calls := by
  induction h generalizing j' with
  | nil j => exact ⟨j', .nil j', hj⟩
  | cons h failed _ ih =>
    obtain ⟨l, hfirst, hl⟩ := plain_returned hs hj h
    obtain ⟨k', hrest, hk⟩ := ih hl
    exact ⟨k', .cons hfirst failed hrest, hk⟩

end Grammar

/-- If every step of `R` can be followed along `S`, so can any number of steps. -/
theorem exists_reflTransGen_of_follows {α β : Type} {R : α → α → Prop} {R' : β → β → Prop}
    {S : α → β → Prop}
    (hstep : ∀ x y x', S x x' → R x y → ∃ y', ReflTransGen R' x' y' ∧ S y y') {x y : α} {x' : β}
    (h : ReflTransGen R x y) (hx : S x x') : ∃ y', ReflTransGen R' x' y' ∧ S y y' := by
  induction h with
  | refl => exact ⟨x', .refl, hx⟩
  | tail _ hlast ih =>
    obtain ⟨y', hto, hy⟩ := ih
    obtain ⟨z', hfrom, hz⟩ := hstep _ _ _ hy hlast
    exact ⟨z', hto.trans hfrom, hz⟩

namespace Parser

/-- One and the same state, which has not failed, after the same calls. -/
def SamePlace (x y : State × Journal) : Prop :=
  x.1 = y.1 ∧ x.1.isError = false ∧ x.2.calls = y.2.calls

variable {rules : Rules} {item separator value : Grammar} {s t : State} {j j' k : Journal}

theorem rounds_plain (h : ReflTransGen (item.meaning rules).Round (s, j) (t, k))
    (hs : s.isError = false) (hj : j.calls = j'.calls) :
    ∃ k', ReflTransGen (item.plain.meaning rules.plain).Round (s, j') (t, k') ∧
      t.isError = false ∧ k.calls = k'.calls := by
  have hround : ∀ x y x', SamePlace x x' → (item.meaning rules).Round x y →
      ∃ y', ReflTransGen (item.plain.meaning rules.plain).Round x' y' ∧ SamePlace y y' := by
    rintro ⟨s, j⟩ ⟨t, k⟩ ⟨_, j'⟩ ⟨rfl, hs, hj⟩ ⟨h, ok, hmoved⟩
    obtain ⟨k', h', hk⟩ := Grammar.plain_returned hs hj h
    exact ⟨(t, k'), .single ⟨h', ok, hmoved⟩, rfl, ok, hk⟩
  have hstart : SamePlace (s, j) (s, j') := ⟨rfl, hs, hj⟩
  obtain ⟨⟨_, k'⟩, hrounds, rfl, ok, hk⟩ := exists_reflTransGen_of_follows hround h hstart
  exact ⟨k', hrounds, ok, hk⟩

theorem separatedRounds_plain
    (h : ReflTransGen ((separator.meaning rules).SeparatedRound (value.meaning rules))
      (s, j) (t, k))
    (hs : s.isError = false) (hj : j.calls = j'.calls) :
    ∃ k', ReflTransGen ((separator.plain.meaning rules.plain).SeparatedRound
        (value.plain.meaning rules.plain)) (s, j') (t, k') ∧
      t.isError = false ∧ k.calls = k'.calls := by
  have hround : ∀ x y x', SamePlace x x' →
      (separator.meaning rules).SeparatedRound (value.meaning rules) x y →
      ∃ y', ReflTransGen ((separator.plain.meaning rules.plain).SeparatedRound
        (value.plain.meaning rules.plain)) x' y' ∧ SamePlace y y' := by
    rintro ⟨s, j⟩ ⟨u, l⟩ ⟨_, j'⟩ ⟨rfl, hs, hj⟩ ⟨t, k, hvalue, ok, hseparator, goes, hmoved⟩
    obtain ⟨k', hvalue', hk⟩ := Grammar.plain_returned hs hj hvalue
    obtain ⟨l', hseparator', hl⟩ := Grammar.plain_returned ok hk hseparator
    exact ⟨(u, l'), .single ⟨t, k', hvalue', ok, hseparator', goes, hmoved⟩, rfl, goes, hl⟩
  have hstart : SamePlace (s, j) (s, j') := ⟨rfl, hs, hj⟩
  obtain ⟨⟨_, k'⟩, hrounds, rfl, ok, hk⟩ := exists_reflTransGen_of_follows hround h hstart
  exact ⟨k', hrounds, ok, hk⟩

end Parser

/-! ### The applications that the two are made of -/

namespace Application

/-- What the plain grammar applies in the place of `a`. -/
structure Counterpart (a b : Application) : Prop where
  grammar : b.grammar = a.grammar.plain
  state : b.state = a.state
  ok : a.state.isError = false
  calls : a.journal.calls = b.journal.calls

variable {rules : Rules} {a a' b : Application} {fault : Fault} {l : Journal}

theorem counterpart_plain {g : Grammar} {s : State} {j k : Journal} (hs : s.isError = false)
    (hjk : j.calls = k.calls) : Counterpart ⟨g, s, j⟩ ⟨g.plain, s, k⟩ :=
  ⟨rfl, rfl, hs, hjk⟩

theorem follow_applies {g : Grammar} {t : State} {k k' : Journal} (ht : t.isError = false)
    (hk : k.calls = k'.calls) (h : Applies rules.plain b ⟨g.plain, t, k'⟩) :
    ∃ b', ReflTransGen (Applies rules.plain) b b' ∧ Counterpart ⟨g, t, k⟩ b' :=
  ⟨_, .single h, counterpart_plain ht hk⟩

/-- What the application applies has its counterpart, one level below the counterpart or,
    where there were log lines or a name, on the same level. -/
theorem Applies.counterpart (h : Applies rules a a') (hab : Counterpart a b) :
    ∃ b', ReflTransGen (Applies rules.plain) b b' ∧ Counterpart a' b' := by
  obtain ⟨g', s', j'⟩ := b
  obtain ⟨rfl, rfl, hs, hj⟩ := hab
  cases h with
  | sequence _ h =>
    obtain ⟨k', hthreads, hk⟩ := h.plain hs hj
    refine follow_applies (h.ok hs) hk ?_
    simp only [Grammar.plain, Grammar.rewrite, Grammar.bare, Grammar.rewriteAll_eq_map,
      List.map_append, List.map_cons]
    exact .sequence hs hthreads
  | choice _ h =>
    obtain ⟨k', hrejected, hk⟩ := h.plain hs hj
    refine follow_applies hs hk ?_
    simp only [Grammar.plain, Grammar.rewrite, Grammar.bare, Grammar.rewriteAll_eq_map,
      List.map_append, List.map_cons]
    exact .choice hs hrejected
  | many _ h =>
    obtain ⟨k', hrounds, ht, hk⟩ := Parser.rounds_plain h hs hj
    exact follow_applies ht hk (.many hs hrounds)
  | many1 _ h =>
    obtain ⟨k', hrounds, ht, hk⟩ := Parser.rounds_plain h hs hj
    exact follow_applies ht hk (.many1 hs hrounds)
  | sepByValue _ h =>
    obtain ⟨k', hrounds, ht, hk⟩ := Parser.separatedRounds_plain h hs hj
    exact follow_applies ht hk (.sepByValue hs hrounds)
  | sepBySeparator _ h hvalue hu =>
    obtain ⟨k', hrounds, ht, hk⟩ := Parser.separatedRounds_plain h hs hj
    obtain ⟨l', hvalue', hl⟩ := Grammar.plain_returned ht hk hvalue
    exact follow_applies hu hl (.sepBySeparator hs hrounds hvalue' hu)
  | sepBy1Value _ h =>
    obtain ⟨k', hrounds, ht, hk⟩ := Parser.separatedRounds_plain h hs hj
    exact follow_applies ht hk (.sepBy1Value hs hrounds)
  | sepBy1Separator _ h hvalue hu =>
    obtain ⟨k', hrounds, ht, hk⟩ := Parser.separatedRounds_plain h hs hj
    obtain ⟨l', hvalue', hl⟩ := Grammar.plain_returned ht hk hvalue
    exact follow_applies hu hl (.sepBy1Separator hs hrounds hvalue' hu)
  | traced _ hline =>
    obtain ⟨_, _, ⟨⟩, -, hk⟩ :=
      (Coupling.identity.mirrors_debugLine_left (Parser.positionLine _ _)).returned hj hline
    exact ⟨_, .refl, counterpart_plain hs hk⟩
  | map => exact follow_applies hs hj .map
  | chainBody => exact follow_applies hs hj .chainBody
  | chainNext hbody ht hv =>
    obtain ⟨k', hbody', hk⟩ := Grammar.plain_returned hs hj hbody
    obtain ⟨_, l', hv', rfl, hl⟩ := (Coupling.identity.mirrors_response _).returned hk hv
    exact follow_applies ht hl (.chainNext hbody' ht hv')
  | errorMap => exact follow_applies hs hj .errorMap
  | named => exact ⟨_, .refl, counterpart_plain hs hj⟩
  | lazy htouch =>
    obtain ⟨_, k', htouch', -, hk⟩ := (Coupling.identity.mirrors_response _).returned hj htouch
    exact follow_applies hs hk (.lazy htouch')
  | rule hname =>
    refine follow_applies hs hj (.rule ?_)
    rw [Rules.plain, Grammar.lookup_rewrite, hname]
    rfl

/-- What is reached in the one is reached in the other. -/
theorem Reaches.counterpart (h : Reaches rules a a') (hab : Counterpart a b) :
    ∃ b', Reaches rules.plain b b' ∧ Counterpart a' b' :=
  exists_reflTransGen_of_follows (fun _ _ _ hxy happlies => happlies.counterpart hxy) h hab

/-- The user function that raises the fault in the one raises it in the other. -/
theorem Faults.counterpart (h : a.Faults rules fault l) (hab : Counterpart a b) :
    ∃ l', b.Faults rules.plain fault l' ∧ l.calls = l'.calls := by
  obtain ⟨g', s', j'⟩ := b
  obtain ⟨rfl, rfl, hs, hj⟩ := hab
  cases h with
  | step h =>
    obtain ⟨l', h', hl⟩ := (Coupling.identity.mirrors_response _).raised hj h
    exact ⟨l', .step h', hl⟩
  | @function body f _ t _ _ _ _ _ hbody ht hf =>
    obtain ⟨k', hbody', hk⟩ := Grammar.plain_returned hs hj hbody
    obtain ⟨l', hf', hl⟩ := (Coupling.identity.mirrors_response _).raised hk hf
    refine ⟨l', .function ?_ hbody' ht hf', hl⟩
    -- Without names around it the body may turn out to be that of `between`.
    rintro ⟨rfl, left, content, right, hplain⟩
    change body.plain = _ at hplain
    rw [hplain] at hbody'
    exact Grammar.pick_middle_ne_raised hbody' ht hf'
  | continuation hbody ht hprepare =>
    obtain ⟨k', hbody', hk⟩ := Grammar.plain_returned hs hj hbody
    obtain ⟨l', hprepare', hl⟩ := (Coupling.identity.mirrors_response _).raised hk hprepare
    exact ⟨l', .continuation hbody' ht hprepare', hl⟩
  | handler hbody ht hhandler =>
    obtain ⟨k', hbody', hk⟩ := Grammar.plain_returned hs hj hbody
    obtain ⟨l', hhandler', hl⟩ := (Coupling.identity.mirrors_response _).raised hk hhandler
    exact ⟨l', .handler hbody' ht hhandler', hl⟩
  | thunk htouch =>
    obtain ⟨l', htouch', hl⟩ := (Coupling.identity.mirrors_response _).raised hj htouch
    exact ⟨l', .thunk htouch', hl⟩
  | unknown hname =>
    refine ⟨j', .unknown ?_, hj⟩
    rw [Rules.plain, Grammar.lookup_rewrite, hname]
    rfl

end Application

namespace Grammar

open Application (ofRun)

/-- **Debugging aids change nothing.**  On a state that has not failed, a grammar and the
    plain grammar end alike, whichever way the debug switch stands for the one and for
    the other: they return one and the same state, or raise one and the same fault, after
    the same calls.  A fault is raised by one and the same user function, called at the
    same place.  So it is with runs on a text.  And where the switch is off and no user
    function that is called turns it on, nothing is logged. -/
theorem debugging_aids_change_nothing (rules : Rules) (g : Grammar) {s : State} {j k : Journal}
    (hs : s.isError = false) (hjk : j.calls = k.calls) :
    (∃ n, ∀ fuel, n ≤ fuel →
      (g.parser rules fuel s j).Agrees (g.plain.parser rules.plain fuel s k)) ∧
    (∀ a fault l, Application.Reaches rules ⟨g, s, j⟩ a → a.Faults rules fault l →
      ∃ b l', Application.Reaches rules.plain ⟨g.plain, s, k⟩ b ∧
        b.Faults rules.plain fault l' ∧ a.Counterpart b ∧ l.calls = l'.calls) ∧
    (∀ text, ∃ n, ∀ fuel, n ≤ fuel →
      (g.run rules fuel text j).Agrees (g.plain.run rules.plain fuel text k)) ∧
    (j.debug = false → Application.StaysOff rules ⟨g, s, j⟩ →
      ∀ fuel, (g.parser rules fuel s).Leaves (Journal.Silent j.log) j) ∧
    ∀ text, j.debug = false → (ofRun g text j).StaysOff rules →
      ∀ fuel, (g.run rules fuel text).Leaves (Journal.Silent j.log) j := by
  have halike := alike_plain rules g
  refine ⟨halike.exists_fuel_agrees hs hjk, ?_, fun text => ?_, ?_, ?_⟩
  · intro a fault l hreaches hfaults
    obtain ⟨b, hreaches', hab⟩ :=
      hreaches.counterpart (Application.counterpart_plain hs hjk)
    obtain ⟨l', hfaults', hl⟩ := hfaults.counterpart hab
    exact ⟨b, l', hreaches', hfaults', hab, hl⟩
  · exact halike.run_exists_fuel_agrees text hjk
  · intro hoff hstays fuel
    exact Application.leaves_silent hstays ⟨hoff, rfl⟩ fuel
  · intro text hoff hstays fuel
    exact Application.run_leaves_silent hstays hoff fuel

/-! ### A table with log lines and names -/

/-- Reading a number is recorded, and turns the log on. -/
def noted (number : Value) : Response Value := do
  Response.call "number" number
  Response.effect (.setDebug true)
  readInteger number

/-- A number, or what goes for one, is read by `f`. -/
def ledger (f : Value → Response Value) : Rules :=
  [("number", .traced "number" (.named (.map letters f) "number"))]

def ledgerList : Grammar := .traced "list" (.sepBy (.literal ",") (ref "number"))

theorem readInteger_keepsOff (v : Value) : .setDebug true ∉ (readInteger v).effects := by
  rw [readInteger]
  split
  · exact List.not_mem_nil
  · exact List.not_mem_nil

theorem ledger_keepsOff : (ledger readInteger).Everywhere KeepsOff := by
  apply Rules.everywhere_of_mem
  simp [ledger, letters, KeepsOff, readInteger_keepsOff]

theorem ledgerList_keepsOff : Everywhere KeepsOff ledgerList := by
  simp only [ledgerList, ref, everywhere_traced, everywhere_sepBy, everywhere_literal,
    everywhere_lazy, everywhere_rule, KeepsOff, true_and, and_true]
  exact List.not_mem_nil

/-- The first entry turns the log on and then proves to be no number; with a function that
    leaves the log alone nothing is logged. -/
theorem ledger_debugging_aids_change_nothing :
    (∃ fault l, ledgerList.parser (ledger noted) 9 (State.initial (Text.ofString "x,y")) {}
        = .raised fault l ∧ l.calls.size = 1 ∧ l.debug = true) ∧
      (∃ n, ∀ fuel, n ≤ fuel →
        (ledgerList.run (ledger noted) fuel (Text.ofString "x,y") {}).Agrees
          (ledgerList.plain.run (ledger noted).plain fuel (Text.ofString "x,y")
            { debug := true })) ∧
      (ofRun ledgerList (Text.ofString "x,y") {}).StaysOff (ledger readInteger) ∧
      ∀ fuel, (ledgerList.run (ledger readInteger) fuel (Text.ofString "x,y")).Leaves
        (Journal.Silent #[]) {} := by
  have hstart : (State.initial (Text.ofString "x,y")).isError = false := rfl
  have hcalls : ({} : Journal).calls = ({ debug := true } : Journal).calls := rfl
  have hoff : (ofRun ledgerList (Text.ofString "x,y") {}).StaysOff (ledger readInteger) :=
    Application.staysOff_of_everywhere ledger_keepsOff ledgerList_keepsOff
  obtain ⟨-, -, hrun, -, -⟩ :=
    debugging_aids_change_nothing (ledger noted) ledgerList hstart hcalls
  obtain ⟨-, -, -, -, hsilent⟩ :=
    debugging_aids_change_nothing (ledger readInteger) ledgerList hstart hcalls
  exact ⟨⟨_, _, rfl, rfl, rfl⟩, hrun _, hoff, hsilent _ rfl hoff⟩

end Grammar

end Descent
