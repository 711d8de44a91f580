/-
  Descent/Proofs/Silence.lean
  ===========================
  **Nothing is logged unless a user function turns the debug switch on.**

  The switch is in the journal, and user functions are all that moves it.  Which of them
  a run calls, and on what, is known from the applications that it reaches
  (`Application.Performs`).  If the switch is off to begin with and none of these calls
  turns it on, not even to turn it off again, the switch stays off and the log stays as
  it was (`Application.leaves_silent`).

  `Run.Leaves` is what carries this through an operation.  A run that begins at a certain
  journal leaves a journal of a certain kind, whether it returns or raises; what follows
  a run begins at the journal that the run has left.
-/
import Descent.Grammar.Run
import Descent.Proofs.Calls

namespace Descent

open Relation (ReflTransGen)

/-- The journal at the end, if there is an answer. -/
def Outcome.journal? {α : Type} : Outcome α → Option Journal
  | .returned _ k => some k
  | .raised _ k => some k
  | .exhausted => none

/-- The switch is off, and the log holds these lines. -/
structure Journal.Silent (log : Array String) (j : Journal) : Prop where
  off : j.debug = false
  log_eq : j.log = log

namespace Run

variable {α β : Type} {I : Journal → Prop} {x y : Run α} {f : α → Run β} {j : Journal}

/-- Begun at the journal `j`, the run ends with a journal that has the property. -/
def Leaves (I : Journal → Prop) (x : Run α) (j : Journal) : Prop :=
  ∀ k, (x j).journal? = some k → I k

theorem Leaves.pure {a : α} (h : I j) : Leaves I (pure a) j := by
  rintro k ⟨⟩
  exact h

theorem Leaves.raise {fault : Fault} (h : I j) : Leaves I (raise fault : Run α) j := by
  rintro k ⟨⟩
  exact h

theorem Leaves.exhausted : Leaves I (exhausted : Run α) j := by
  rintro k ⟨⟩

theorem Leaves.of_returned {a : α} {k : Journal} (hx : x.Leaves I j)
    (h : x j = .returned a k) : I k :=
  hx k (by rw [h]; rfl)

/-- What follows begins at the journal that was left. -/
theorem Leaves.bind (hx : x.Leaves I j)
    (hf : ∀ a k, x j = .returned a k → I k → (f a).Leaves I k) : (x >>= f).Leaves I j := by
  intro k hk
  rw [bind_apply] at hk
  cases hj : x j with
  | returned a l =>
    rw [hj] at hk
    exact hf a l hj (hx.of_returned hj) k hk
  | raised fault l =>
    rw [hj] at hk
    exact hx k (by rw [hj]; exact hk)
  | exhausted =>
    rw [hj] at hk
    cases hk

theorem Leaves.ite {c : Prop} [Decidable c] (hx : c → x.Leaves I j) (hy : ¬c → y.Leaves I j) :
    (if c then x else y).Leaves I j := by
  split
  · exact hx ‹c›
  · exact hy ‹¬c›

variable {log : Array String}

theorem debugLine_of_off (h : j.debug = false) (line : String) :
    debugLine line j = .returned () j := by
  rw [debugLine_apply, h, if_neg Bool.false_ne_true]

theorem leaves_debugLine (line : String) (h : j.Silent log) :
    (debugLine line).Leaves (Journal.Silent log) j := by
  intro k hk
  rw [debugLine_of_off h.off] at hk
  cases hk
  exact h

end Run

namespace Journal

variable {log : Array String} {j : Journal} {effects : List Effect}

theorem Silent.performAll (h : j.Silent log) (heffects : .setDebug true ∉ effects) :
    (j.performAll effects).Silent log := by
  induction effects generalizing j with
  | nil => exact h
  | cons e effects ih =>
    rw [List.mem_cons, not_or] at heffects
    refine ih ?_ heffects.2
    cases e with
    | call label argument => exact ⟨h.off, h.log_eq⟩
    | setDebug on =>
      have hon : on = false := by
        cases on with
        | false => rfl
        | true => exact absurd rfl heffects.1
      exact ⟨hon, h.log_eq⟩

end Journal

theorem Response.leaves_silent {α : Type} {r : Response α} {log : Array String} {j : Journal}
    (h : j.Silent log) (heffects : .setDebug true ∉ r.effects) :
    r.run.Leaves (Journal.Silent log) j := by
  intro k hk
  rw [Response.run] at hk
  have hk' : j.performAll r.effects = k := by
    cases hr : r.outcome <;> rw [hr] at hk <;> cases hk <;> rfl
  exact hk' ▸ h.performAll heffects

/-! ### Operations on parsers -/

namespace Parser

open Run (Leaves)

variable {I : Journal → Prop} {p p' q q' : Parser} {results : List Value} {s : State}
  {j : Journal} {log : Array String}

theorem leaves_literal (text : String) (h : I j) : (literal text s).Leaves I j :=
  .ite (fun _ => .pure h) fun _ => .ite (fun _ => .pure h) fun _ =>
    .ite (fun _ => .pure h) fun _ => .pure h

theorem leaves_regex (name : String) (pattern : Pattern) (h : I j) :
    (regex name pattern s).Leaves I j := by
  refine .ite (fun _ => .pure h) fun _ => .ite (fun _ => .pure h) fun _ => ?_
  cases pattern.matchAt s.input s.cursor with
  | none => exact .pure h
  | some stop => exact .ite (fun _ => .pure h) fun _ => .pure h

theorem leaves_endOfInput (h : I j) : (endOfInput s).Leaves I j :=
  .ite (fun _ => .pure h) fun _ => .ite (fun _ => .pure h) fun _ => .pure h

theorem leaves_trace (label : String) (h : j.Silent log) :
    (trace label s).Leaves (Journal.Silent log) j := by
  intro k hk
  rw [trace, Run.bind_returned (x := Run.debugging) rfl, h.off, Bool.false_and,
    if_neg Bool.false_ne_true] at hk
  cases hk
  exact h

theorem leaves_traced (label : String) (h : j.Silent log)
    (hp : (p s).Leaves (Journal.Silent log) j) :
    (traced label p s).Leaves (Journal.Silent log) j := by
  refine .ite (fun _ => .pure h) fun _ => .bind (Run.leaves_debugLine _ h) fun _ k hk _ => ?_
  rw [Run.debugLine_of_off h.off] at hk
  cases hk
  refine .bind hp fun t k _ hsilent => .ite (fun _ => ?_) fun _ => .pure hsilent
  exact .bind (Run.leaves_debugLine _ hsilent) fun _ l _ hl => .pure hl

/-- Every round of a loop begins where the rounds before it have ended. -/
theorem leaves_collect (hp : Parser.Extends p p') (fuel : Nat) (hj : I j)
    (hround : ∀ t k, ReflTransGen p'.Round (s, j) (t, k) → I k → (p t).Leaves I k) :
    (collect p fuel results s).Leaves I j := by
  induction fuel generalizing results s j with
  | zero => exact .exhausted
  | succ fuel ih =>
    refine .bind (hround s j .refl hj) fun t k ht hk => ?_
    refine .ite (fun _ => .pure hk) fun hok => .ite (fun _ => .pure hk) fun hmoved => ?_
    have hfirst : p'.Round (s, j) (t, k) := ⟨(hp s).returned ht, by simpa using hok, hmoved⟩
    exact ih hk fun u l hrounds hl => hround u l (.head hfirst hrounds) hl

theorem leaves_collectSeparated (hp : Parser.Extends p p') (hq : Parser.Extends q q') (fuel : Nat)
    (hj : I j)
    (hvalue : ∀ t k, ReflTransGen (p'.SeparatedRound q') (s, j) (t, k) → I k → (q t).Leaves I k)
    (hseparator : ∀ t k u l, ReflTransGen (p'.SeparatedRound q') (s, j) (t, k) →
      q' t k = .returned u l → u.isError = false → I l → (p u).Leaves I l) :
    (collectSeparated p q fuel results s).Leaves I j := by
  induction fuel generalizing results s j with
  | zero => exact .exhausted
  | succ fuel ih =>
    refine .bind (hvalue s j .refl hj) fun t k ht hk => .ite (fun _ => .pure hk) fun hfailed => ?_
    have hok : t.isError = false := by simpa using hfailed
    have hfound : q' s j = .returned t k := (hq s).returned ht
    refine .bind (hseparator s j t k .refl hfound hok hk) fun u l hu hl => ?_
    refine .ite (fun _ => .pure hl) fun hends => ?_
    obtain ⟨hgoes, hmoved⟩ : u.isError = false ∧ u.cursor ≠ s.cursor := by simpa using hends
    have hfirst : p'.SeparatedRound q' (s, j) (u, l) :=
      ⟨t, k, hfound, hok, (hp t).returned hu, hgoes, hmoved⟩
    exact ih hl (fun v m hrounds hm => hvalue v m (.head hfirst hrounds) hm)
      fun v m w n hrounds hw hwok hn => hseparator v m w n (.head hfirst hrounds) hw hwok hn

end Parser

namespace Grammar

variable {I : Journal → Prop} {rules : Rules} {parts : List Grammar} {results : List Value}
  {s : State} {fuel : Nat} {j : Journal}

/-- A part of a sequence begins where the parts before it have ended. -/
theorem leaves_sequenceFrom (hj : I j)
    (hpart : ∀ before part after t k, parts = before ++ part :: after →
      Threads rules before s j t k → I k → (part.parser rules fuel t).Leaves I k) :
    (Parser.sequenceFrom (parts.map (parser rules fuel)) results s).Leaves I j := by
  induction parts generalizing results s j with
  | nil => exact .pure hj
  | cons part parts ih =>
    refine .bind (hpart [] part parts s j rfl (.nil s j) hj) fun t k ht hk => ?_
    refine .ite (fun _ => .pure hk) fun hfailed => ?_
    have hok : t.isError = false := by simpa using hfailed
    have hfirst := (parser_extends_meaning rules fuel part s).returned ht
    refine ih hk fun before last after u l hparts hthreads hl => ?_
    exact hpart (part :: before) last after u l (by rw [hparts]; rfl)
      (.cons hfirst hok hthreads) hl

/-- An alternative is tried where the alternatives before it have left off. -/
theorem leaves_choiceFrom (hj : I j)
    (hpart : ∀ before part after k, parts = before ++ part :: after →
      Rejected rules s before j k → I k → (part.parser rules fuel s).Leaves I k) :
    (Parser.choiceFrom (parts.map (parser rules fuel)) s).Leaves I j := by
  induction parts generalizing j with
  | nil => exact .pure hj
  | cons part parts ih =>
    refine .bind (hpart [] part parts j rfl (.nil j) hj) fun t k ht hk => ?_
    refine .ite (fun hfailed => ?_) fun _ => .pure hk
    have hfirst := (parser_extends_meaning rules fuel part s).returned ht
    refine ih hk fun before last after l hparts hrejected hl => ?_
    exact hpart (part :: before) last after l (by rw [hparts]; rfl)
      (.cons hfirst hfailed hrejected) hl

end Grammar

/-! ### Applications -/

namespace Application

/-- The user function that is called at the application itself has these effects. -/
inductive Performs (rules : Rules) : Application → List Effect → Prop where
  | step {name : String} {step : State → Response State} {s : State} {j : Journal} :
      Performs rules ⟨.custom name step, s, j⟩ (step s).effects
  | function {body : Grammar} {f : Value → Response Value} {s t : State} {j k : Journal}
      (h : body.meaning rules s j = .returned t k) (ht : t.isError = false) :
      Performs rules ⟨.map body f, s, j⟩ (f t.result).effects
  | continuation {body : Grammar} {prepare : Value → Response Value} {next : Value → Grammar}
      {s t : State} {j k : Journal} (h : body.meaning rules s j = .returned t k)
      (ht : t.isError = false) :
      Performs rules ⟨.chain body prepare next, s, j⟩ (prepare t.result).effects
  | handler {body : Grammar} {handler : ParseError → Nat → Response Revision} {s t : State}
      {e : ParseError} {j k : Journal} (h : body.meaning rules s j = .returned t k)
      (ht : t.error = some e) :
      Performs rules ⟨.errorMap body handler, s, j⟩ (handler e t.cursor).effects
  | thunk {touch : Response Unit} {body : Grammar} {s : State} {j : Journal} :
      Performs rules ⟨.lazy touch body, s, j⟩ touch.effects

/-- No user function that is called at an application that is reached turns the switch
    on. -/
def StaysOff (rules : Rules) (a : Application) : Prop :=
  ∀ b effects, Reaches rules a b → Performs rules b effects → .setDebug true ∉ effects

variable {rules : Rules} {a b : Application} {log : Array String}

theorem StaysOff.applies (h : a.StaysOff rules) (hb : Applies rules a b) : b.StaysOff rules :=
  fun c effects hreaches => h c effects (.head hb hreaches)

/-- **Nothing is logged while the switch is off**, and it is off as long as no user
    function turns it on. -/
theorem leaves_silent (hoff : a.StaysOff rules) (hj : a.journal.Silent log) (fuel : Nat) :
    (a.grammar.parser rules fuel a.state).Leaves (Journal.Silent log) a.journal := by
  induction fuel generalizing a with
  | zero => exact .exhausted
  | succ fuel ih =>
    have hchild : ∀ {b : Application}, Applies rules a b → b.journal.Silent log →
        (b.grammar.parser rules fuel b.state).Leaves (Journal.Silent log) b.journal :=
      fun hb hsilent => ih (hoff.applies hb) hsilent
    have hcalled : ∀ {effects}, Performs rules a effects → .setDebug true ∉ effects :=
      fun {effects} h => hoff a effects .refl h
    obtain ⟨g, s, j⟩ := a
    have hreturned : ∀ {g : Grammar} {t : State} {l : Journal},
        g.parser rules fuel s j = .returned t l → g.meaning rules s j = .returned t l :=
      fun {g} => (Grammar.parser_extends_meaning rules fuel g s).returned
    have hextends := Grammar.parser_extends_meaning rules fuel
    cases g with
    | custom name step => exact Response.leaves_silent hj (hcalled .step)
    | literal text => exact Parser.leaves_literal text hj
    | regex name pattern => exact Parser.leaves_regex name pattern hj
    | succeed value => exact .ite (fun _ => .pure hj) fun _ => .pure hj
    | fail message => exact .ite (fun _ => .pure hj) fun _ => .pure hj
    | endOfInput => exact Parser.leaves_endOfInput hj
    | trace label => exact Parser.leaves_trace label hj
    | sequence parts =>
      refine .ite (fun _ => .pure hj) fun hs => Grammar.leaves_sequenceFrom hj ?_
      rintro before part after t k rfl hthreads hk
      exact hchild (.sequence (by simpa using hs) hthreads) hk
    | choice alternatives =>
      refine .ite (fun _ => .pure hj) fun hs => Grammar.leaves_choiceFrom hj ?_
      rintro before part after k rfl hrejected hk
      exact hchild (.choice (by simpa using hs) hrejected) hk
    | many item =>
      refine .ite (fun _ => .pure hj) fun hs => .bind ?_ fun _ k _ hk => .pure hk
      exact Parser.leaves_collect (hextends item) fuel hj fun t k hrounds hk =>
        hchild (.many (by simpa using hs) hrounds) hk
    | many1 item =>
      refine .ite (fun _ => .pure hj) fun hs => .bind ?_ fun _ k _ hk =>
        .ite (fun _ => .pure hk) fun _ => .pure hk
      exact Parser.leaves_collect (hextends item) fuel hj fun t k hrounds hk =>
        hchild (.many1 (by simpa using hs) hrounds) hk
    | sepBy separator value =>
      refine .ite (fun _ => .pure hj) fun hs => .bind ?_ fun _ k _ hk => .pure hk
      have hok : s.isError = false := by simpa using hs
      exact Parser.leaves_collectSeparated (hextends separator) (hextends value) fuel hj
        (fun t k hrounds hk => hchild (.sepByValue hok hrounds) hk)
        fun t k u l hrounds hu huok hl => hchild (.sepBySeparator hok hrounds hu huok) hl
    | sepBy1 separator value =>
      refine .ite (fun _ => .pure hj) fun hs => .bind ?_ fun _ k _ hk =>
        .ite (fun _ => .pure hk) fun _ => .pure hk
      have hok : s.isError = false := by simpa using hs
      exact Parser.leaves_collectSeparated (hextends separator) (hextends value) fuel hj
        (fun t k hrounds hk => hchild (.sepBy1Value hok hrounds) hk)
        fun t k u l hrounds hu huok hl => hchild (.sepBy1Separator hok hrounds hu huok) hl
    | traced label body =>
      cases hs : s.isError with
      | true =>
        simp only [Grammar.parser, Parser.traced, hs, if_true]
        exact .pure hj
      | false =>
        have hline := Run.debugLine_of_off hj.off (Parser.positionLine label s)
        exact Parser.leaves_traced label hj (hchild (.traced hs hline) hj)
    | map body f =>
      refine .bind (hchild .map hj) fun t k ht hk => .ite (fun _ => .pure hk) fun hok => ?_
      have hsilent := hcalled (.function (hreturned ht) (by simpa using hok))
      exact .bind (Response.leaves_silent hk hsilent) fun _ l _ hl => .pure hl
    | chain body prepare next =>
      refine .bind (hchild .chainBody hj) fun t k ht hk => ?_
      refine .ite (fun _ => .pure hk) fun hfailed => ?_
      have hok : t.isError = false := by simpa using hfailed
      have hsilent := hcalled (.continuation (hreturned ht) hok)
      simp only [bind_assoc, pure_bind]
      refine .bind (Response.leaves_silent hk hsilent) fun w l hw hl => ?_
      exact hchild (.chainNext (hreturned ht) hok hw) hl
    | errorMap body handler =>
      refine .bind (hchild .errorMap hj) fun t k ht hk => ?_
      cases herror : t.error with
      | none => exact .pure hk
      | some e =>
        have hsilent := hcalled (.handler (hreturned ht) herror)
        exact .bind (Response.leaves_silent hk hsilent) fun _ l _ hl => .pure hl
    | named body name => exact hchild .named hj
    | lazy touch body =>
      simp only [Grammar.parser, Parser.lazy, bind_assoc, pure_bind]
      refine .bind (Response.leaves_silent hj (hcalled .thunk)) fun _ k hk hsilent => ?_
      exact hchild (.lazy hk) hsilent
    | rule name =>
      cases hname : rules.lookup name with
      | none =>
        simp only [Grammar.parser, hname]
        exact .raise hj
      | some body =>
        simp only [Grammar.parser, hname]
        exact hchild (.rule hname) hj

/-- A run on a text begins and ends without a line if nothing is logged in between. -/
theorem run_leaves_silent {g : Grammar} {text : Text} {j : Journal}
    (hoff : (ofRun g text j).StaysOff rules) (hj : j.debug = false) (fuel : Nat) :
    (g.run rules fuel text).Leaves (Journal.Silent j.log) j := by
  have hsilent : j.Silent j.log := ⟨hj, rfl⟩
  have hjournal : (ofRun g text j).journal = j := by simp [ofRun, hj]
  refine .bind (Run.leaves_debugLine _ hsilent) fun _ k hk _ => ?_
  rw [Run.debugLine_of_off hj] at hk
  cases hk
  have hparser := leaves_silent hoff (hjournal.symm ▸ hsilent) fuel
  rw [hjournal] at hparser
  refine .bind hparser fun t k _ hk => ?_
  exact .bind (Run.leaves_debugLine _ hk) fun _ l _ hl => .pure hl

end Application

/-! ### Grammars that never turn the switch on -/

namespace Grammar

/-- If the node calls a user function, that function never turns the switch on. -/
def KeepsOff : Grammar → Prop
  | .custom _ step => ∀ s, .setDebug true ∉ (step s).effects
  | .map _ f => ∀ v, .setDebug true ∉ (f v).effects
  | .chain _ prepare _ => ∀ v, .setDebug true ∉ (prepare v).effects
  | .errorMap _ handler => ∀ e cursor, .setDebug true ∉ (handler e cursor).effects
  | .lazy touch _ => .setDebug true ∉ touch.effects
  | _ => True

end Grammar

namespace Application

variable {rules : Rules} {a b : Application} {ok : Grammar → Prop}

theorem Applies.part_or_rule (h : Applies rules a b) :
    Grammar.Part b.grammar a.grammar ∨
      ∃ name, a.grammar = .rule name ∧ rules.lookup name = some b.grammar := by
  cases h with
  | sequence => exact .inl (.sequence (by simp))
  | choice => exact .inl (.choice (by simp))
  | rule h => exact .inr ⟨_, rfl, h⟩
  | _ => exact .inl (by constructor)

/-- What holds at every node of a grammar and of the rules holds at the nodes that are
    reached. -/
theorem Reaches.everywhere (hrules : rules.Everywhere ok) (h : Reaches rules a b)
    (ha : Grammar.Everywhere ok a.grammar) : Grammar.Everywhere ok b.grammar := by
  induction h with
  | refl => exact ha
  | tail _ hlast ih =>
    rcases hlast.part_or_rule with hpart | ⟨name, -, hlookup⟩
    · exact ih.part hpart
    · exact hrules name _ hlookup

theorem staysOff_of_everywhere (hrules : rules.Everywhere Grammar.KeepsOff)
    (ha : Grammar.Everywhere Grammar.KeepsOff a.grammar) : a.StaysOff rules := by
  intro b effects hreaches hperforms
  have hb := (hreaches.everywhere hrules ha).here
  cases hperforms with
  | step => exact hb _
  | function _ _ => exact hb _
  | continuation _ _ => exact hb _
  | handler _ _ => exact hb _ _
  | thunk => exact hb

end Application

end Descent
