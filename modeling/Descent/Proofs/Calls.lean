/-
  Descent/Proofs/Calls.lean
  =========================
  **Which applications a run is made of, and where its faults come from.**

  Applying a grammar to a state, with the journal as it stands, applies parts of it to
  other states.  `Application.Applies` says which, one level down: each part of a
  sequence that is reached, each alternative that is tried, each round of a loop.
  Going down from level to level reaches every application that a run is made of.

  An application faults (`Application.Faults`) if the user function that it calls
  itself raises, or if it asks for a rule that does not exist.  The function by which
  `between` picks what it has read is not the user's, and it never raises.

  A run raises exactly the faults of the applications that it reaches
  (`Grammar.raises_iff`): the engine has none of its own.
-/
import Mathlib.Logic.Relation
import Descent.Proofs.Ensures
import Descent.Proofs.Steps

namespace Descent

open Relation (ReflTransGen)

/-! ### Rounds of a loop -/

namespace Parser

/-- A round of a loop that is followed by another one. -/
def Round (p : Parser) (x y : State × Journal) : Prop :=
  p x.1 x.2 = .returned y.1 y.2 ∧ y.1.isError = false ∧ y.1.cursor ≠ x.1.cursor

/-- A value and a separator that are followed by another value. -/
def SeparatedRound (sep value : Parser) (x y : State × Journal) : Prop :=
  ∃ t k, value x.1 x.2 = .returned t k ∧ t.isError = false ∧
    sep t k = .returned y.1 y.2 ∧ y.1.isError = false ∧ y.1.cursor ≠ x.1.cursor

end Parser

namespace Grammar

/-- The grammars succeed one after the other, from one state to another. -/
inductive Threads (rules : Rules) : List Grammar → State → Journal → State → Journal → Prop where
  | nil (s : State) (j : Journal) : Threads rules [] s j s j
  | cons {g : Grammar} {gs : List Grammar} {s t u : State} {j k l : Journal}
      (h : g.meaning rules s j = .returned t k) (ok : t.isError = false)
      (rest : Threads rules gs t k u l) : Threads rules (g :: gs) s j u l

/-- The grammars fail one after the other, all on one state. -/
inductive Rejected (rules : Rules) (s : State) : List Grammar → Journal → Journal → Prop where
  | nil (j : Journal) : Rejected rules s [] j j
  | cons {g : Grammar} {gs : List Grammar} {t : State} {j k l : Journal}
      (h : g.meaning rules s j = .returned t k) (failed : t.isError = true)
      (rest : Rejected rules s gs k l) : Rejected rules s (g :: gs) j l

/-- The function is the one by which `between` picks what stands in the middle. -/
def Picks (body : Grammar) (f : Value → Response Value) : Prop :=
  f = pick 1 ∧ ∃ left content right, body = .sequence [left, content, right]

end Grammar

/-! ### Applications -/

/-- A grammar that is applied to a state, with the journal as it stands. -/
structure Application where
  grammar : Grammar
  state : State
  journal : Journal

namespace Application

/-- The first application of a run on a text, behind the line that says that the run
    begins. -/
def ofRun (g : Grammar) (text : Text) (j : Journal) : Application where
  grammar := g
  state := State.initial text
  journal :=
    let opening := g.name ++ " start: " ++ toString text.size ++ " characters of input"
    if j.debug = true then j.write opening else j

/-- One level down: the first application applies the second. -/
inductive Applies (rules : Rules) : Application → Application → Prop where
  | sequence {before after : List Grammar} {part : Grammar} {s t : State} {j k : Journal}
      (hs : s.isError = false) (h : Grammar.Threads rules before s j t k) :
      Applies rules ⟨.sequence (before ++ part :: after), s, j⟩ ⟨part, t, k⟩
  | choice {before after : List Grammar} {alternative : Grammar} {s : State} {j k : Journal}
      (hs : s.isError = false) (h : Grammar.Rejected rules s before j k) :
      Applies rules ⟨.choice (before ++ alternative :: after), s, j⟩ ⟨alternative, s, k⟩
  | many {item : Grammar} {s t : State} {j k : Journal} (hs : s.isError = false)
      (h : ReflTransGen (item.meaning rules).Round (s, j) (t, k)) :
      Applies rules ⟨.many item, s, j⟩ ⟨item, t, k⟩
  | many1 {item : Grammar} {s t : State} {j k : Journal} (hs : s.isError = false)
      (h : ReflTransGen (item.meaning rules).Round (s, j) (t, k)) :
      Applies rules ⟨.many1 item, s, j⟩ ⟨item, t, k⟩
  | sepByValue {separator value : Grammar} {s t : State} {j k : Journal} (hs : s.isError = false)
      (h : ReflTransGen ((separator.meaning rules).SeparatedRound (value.meaning rules))
        (s, j) (t, k)) :
      Applies rules ⟨.sepBy separator value, s, j⟩ ⟨value, t, k⟩
  | sepBySeparator {separator value : Grammar} {s t u : State} {j k l : Journal}
      (hs : s.isError = false)
      (h : ReflTransGen ((separator.meaning rules).SeparatedRound (value.meaning rules))
        (s, j) (t, k))
      (hvalue : value.meaning rules t k = .returned u l) (hu : u.isError = false) :
      Applies rules ⟨.sepBy separator value, s, j⟩ ⟨separator, u, l⟩
  | sepBy1Value {separator value : Grammar} {s t : State} {j k : Journal} (hs : s.isError = false)
      (h : ReflTransGen ((separator.meaning rules).SeparatedRound (value.meaning rules))
        (s, j) (t, k)) :
      Applies rules ⟨.sepBy1 separator value, s, j⟩ ⟨value, t, k⟩
  | sepBy1Separator {separator value : Grammar} {s t u : State} {j k l : Journal}
      (hs : s.isError = false)
      (h : ReflTransGen ((separator.meaning rules).SeparatedRound (value.meaning rules))
        (s, j) (t, k))
      (hvalue : value.meaning rules t k = .returned u l) (hu : u.isError = false) :
      Applies rules ⟨.sepBy1 separator value, s, j⟩ ⟨separator, u, l⟩
  | traced {label : String} {body : Grammar} {s : State} {j k : Journal} (hs : s.isError = false)
      (h : Run.debugLine (Parser.positionLine label s) j = .returned () k) :
      Applies rules ⟨.traced label body, s, j⟩ ⟨body, s, k⟩
  | map {body : Grammar} {f : Value → Response Value} {s : State} {j : Journal} :
      Applies rules ⟨.map body f, s, j⟩ ⟨body, s, j⟩
  | chainBody {body : Grammar} {prepare : Value → Response Value} {next : Value → Grammar}
      {s : State} {j : Journal} : Applies rules ⟨.chain body prepare next, s, j⟩ ⟨body, s, j⟩
  | chainNext {body : Grammar} {prepare : Value → Response Value} {next : Value → Grammar}
      {s t : State} {v : Value} {j k l : Journal}
      (h : body.meaning rules s j = .returned t k) (ht : t.isError = false)
      (hv : (prepare t.result).run k = .returned v l) :
      Applies rules ⟨.chain body prepare next, s, j⟩ ⟨next v, t, l⟩
  | errorMap {body : Grammar} {handler : ParseError → Nat → Response Revision} {s : State}
      {j : Journal} : Applies rules ⟨.errorMap body handler, s, j⟩ ⟨body, s, j⟩
  | named {body : Grammar} {name : String} {s : State} {j : Journal} :
      Applies rules ⟨.named body name, s, j⟩ ⟨body, s, j⟩
  | lazy {touch : Response Unit} {body : Grammar} {s : State} {j k : Journal}
      (h : touch.run j = .returned () k) :
      Applies rules ⟨.lazy touch body, s, j⟩ ⟨body, s, k⟩
  | rule {name : String} {body : Grammar} {s : State} {j : Journal}
      (h : rules.lookup name = some body) : Applies rules ⟨.rule name, s, j⟩ ⟨body, s, j⟩

/-- The user function that is called at the application itself raises the fault, or the
    rule that is asked for does not exist. -/
inductive Faults (rules : Rules) : Application → Fault → Journal → Prop where
  | step {name : String} {step : State → Response State} {s : State} {j k : Journal}
      {fault : Fault} (h : (step s).run j = .raised fault k) :
      Faults rules ⟨.custom name step, s, j⟩ fault k
  | function {body : Grammar} {f : Value → Response Value} {s t : State} {j k l : Journal}
      {fault : Fault} (hf : ¬Grammar.Picks body f)
      (h : body.meaning rules s j = .returned t k) (ht : t.isError = false)
      (hv : (f t.result).run k = .raised fault l) :
      Faults rules ⟨.map body f, s, j⟩ fault l
  | continuation {body : Grammar} {prepare : Value → Response Value} {next : Value → Grammar}
      {s t : State} {j k l : Journal} {fault : Fault}
      (h : body.meaning rules s j = .returned t k) (ht : t.isError = false)
      (hv : (prepare t.result).run k = .raised fault l) :
      Faults rules ⟨.chain body prepare next, s, j⟩ fault l
  | handler {body : Grammar} {handler : ParseError → Nat → Response Revision} {s t : State}
      {e : ParseError} {j k l : Journal} {fault : Fault}
      (h : body.meaning rules s j = .returned t k) (ht : t.error = some e)
      (hr : (handler e t.cursor).run k = .raised fault l) :
      Faults rules ⟨.errorMap body handler, s, j⟩ fault l
  | thunk {touch : Response Unit} {body : Grammar} {s : State} {j k : Journal} {fault : Fault}
      (h : touch.run j = .raised fault k) : Faults rules ⟨.lazy touch body, s, j⟩ fault k
  | unknown {name : String} {s : State} {j : Journal} (h : rules.lookup name = none) :
      Faults rules ⟨.rule name, s, j⟩ (.unknownRule name) j

/-- The second application is reached from the first, on some level. -/
def Reaches (rules : Rules) : Application → Application → Prop := ReflTransGen (Applies rules)

/-- No application that is reached faults: no user function raises, and every rule that
    is asked for is there. -/
def Calm (rules : Rules) (a : Application) : Prop :=
  ∀ b fault k, Reaches rules a b → ¬Faults rules b fault k

end Application

/-! ### A fault ends whatever it is raised in -/

namespace Parser

variable {p q : Parser} {x y : State × Journal} {s t : State} {fault : Fault} {j k : Journal}

/-- Rounds that are followed by another one leave the rest of the loop to do. -/
theorem gather_of_rounds (h : ReflTransGen p.Round x y) (results : List Value) :
    ∃ results', gather p results x.1 x.2 = gather p results' y.1 y.2 := by
  induction h using ReflTransGen.head_induction_on generalizing results with
  | refl => exact ⟨results, rfl⟩
  | head hround _ ih =>
    obtain ⟨hreturned, hok, hmoved⟩ := hround
    rw [gather_ok hreturned hok hmoved]
    exact ih _

theorem gatherSeparated_of_rounds (h : ReflTransGen (p.SeparatedRound q) x y)
    (results : List Value) :
    ∃ results', gatherSeparated p q results x.1 x.2 = gatherSeparated p q results' y.1 y.2 := by
  induction h using ReflTransGen.head_induction_on generalizing results with
  | refl => exact ⟨results, rfl⟩
  | head hround _ ih =>
    obtain ⟨t, k, hvalue, ht, hsep, hok, hmoved⟩ := hround
    rw [gatherSeparated_ok hvalue ht hsep hok hmoved]
    exact ih _

theorem gather_raised (h : ReflTransGen p.Round (s, j) (t, k)) {l : Journal}
    (hp : p t k = .raised fault l) (results : List Value) :
    gather p results s j = .raised fault l := by
  obtain ⟨results', hrest⟩ := gather_of_rounds h results
  rw [hrest, gather_eq]
  exact Run.bind_raised hp

theorem gatherSeparated_value_raised (h : ReflTransGen (p.SeparatedRound q) (s, j) (t, k))
    {l : Journal} (hq : q t k = .raised fault l) (results : List Value) :
    gatherSeparated p q results s j = .raised fault l := by
  obtain ⟨results', hrest⟩ := gatherSeparated_of_rounds h results
  rw [hrest, gatherSeparated_eq]
  exact Run.bind_raised hq

theorem gatherSeparated_separator_raised (h : ReflTransGen (p.SeparatedRound q) (s, j) (t, k))
    {u : State} {l m : Journal} (hq : q t k = .returned u l) (hu : u.isError = false)
    (hp : p u l = .raised fault m) (results : List Value) :
    gatherSeparated p q results s j = .raised fault m := by
  obtain ⟨results', hrest⟩ := gatherSeparated_of_rounds h results
  rw [hrest, gatherSeparated_eq, Run.bind_returned hq, hu, if_neg Bool.false_ne_true]
  exact Run.bind_raised hp

end Parser

namespace Grammar

variable {rules : Rules} {gs rest : List Grammar} {s t : State} {j k : Journal}

theorem Threads.sequenceFrom_eq (h : Threads rules gs s j t k) (results : List Value) :
    ∃ results', Parser.sequenceFrom ((gs ++ rest).map (meaning rules)) results s j
      = Parser.sequenceFrom (rest.map (meaning rules)) results' t k := by
  induction h generalizing results with
  | nil s j => exact ⟨results, rfl⟩
  | cons h ok _ ih =>
    rw [List.cons_append, List.map_cons, Parser.sequenceFrom_ok h ok]
    exact ih _

theorem Rejected.choiceFrom_eq (h : Rejected rules s gs j k) :
    Parser.choiceFrom ((gs ++ rest).map (meaning rules)) s j
      = Parser.choiceFrom (rest.map (meaning rules)) s k := by
  induction h with
  | nil j => rfl
  | cons h failed _ ih =>
    rw [List.cons_append, List.map_cons, Parser.choiceFrom_failed h failed]
    exact ih

end Grammar

namespace Application

variable {rules : Rules} {a b : Application} {fault : Fault} {k : Journal}

/-- How the application ends. -/
noncomputable def outcome (rules : Rules) (a : Application) : Outcome State :=
  a.grammar.meaning rules a.state a.journal

theorem Faults.outcome_eq (h : Faults rules a fault k) : a.outcome rules = .raised fault k := by
  cases h with
  | step h => simpa [outcome] using h
  | function _ h ht hv =>
    rw [outcome, Grammar.meaning_map, Parser.map, Run.bind_returned h, ht,
      if_neg Bool.false_ne_true]
    exact Run.bind_raised hv
  | continuation h ht hv =>
    rw [outcome, Grammar.meaning_chain, Parser.chain, Run.bind_returned h, ht,
      if_neg Bool.false_ne_true]
    exact Run.bind_raised (Run.bind_raised hv)
  | handler h ht hr =>
    rw [outcome, Grammar.meaning_errorMap, Parser.errorMap, Run.bind_returned h, ht]
    exact Run.bind_raised hr
  | thunk h =>
    rw [outcome, Grammar.meaning_lazy]
    exact Run.bind_raised h
  | unknown h =>
    rw [outcome, Grammar.meaning_rule_of_none h]
    rfl

/-- A fault goes straight through the application that it happens in. -/
theorem Applies.outcome_eq (h : Applies rules a b) (hb : b.outcome rules = .raised fault k) :
    a.outcome rules = .raised fault k := by
  cases h with
  | sequence hs h =>
    obtain ⟨results, hrest⟩ := h.sequenceFrom_eq []
    rw [outcome, Grammar.meaning_sequence, Parser.sequence_eq hs, hrest]
    exact Run.bind_raised hb
  | choice hs h =>
    rw [outcome, Grammar.meaning_choice, Parser.choice_eq hs, h.choiceFrom_eq]
    exact Run.bind_raised hb
  | many hs h =>
    rw [outcome, Grammar.meaning_many, Parser.repeated, hs, if_neg Bool.false_ne_true]
    exact Run.bind_raised (Parser.gather_raised h hb [])
  | many1 hs h =>
    rw [outcome, Grammar.meaning_many1, Parser.repeated1, hs, if_neg Bool.false_ne_true]
    exact Run.bind_raised (Parser.gather_raised h hb [])
  | sepByValue hs h =>
    rw [outcome, Grammar.meaning_sepBy, Parser.separated, hs, if_neg Bool.false_ne_true]
    exact Run.bind_raised (Parser.gatherSeparated_value_raised h hb [])
  | sepBySeparator hs h hvalue hu =>
    rw [outcome, Grammar.meaning_sepBy, Parser.separated, hs, if_neg Bool.false_ne_true]
    exact Run.bind_raised (Parser.gatherSeparated_separator_raised h hvalue hu hb [])
  | sepBy1Value hs h =>
    rw [outcome, Grammar.meaning_sepBy1, Parser.separated1, hs, if_neg Bool.false_ne_true]
    exact Run.bind_raised (Parser.gatherSeparated_value_raised h hb [])
  | sepBy1Separator hs h hvalue hu =>
    rw [outcome, Grammar.meaning_sepBy1, Parser.separated1, hs, if_neg Bool.false_ne_true]
    exact Run.bind_raised (Parser.gatherSeparated_separator_raised h hvalue hu hb [])
  | traced hs h =>
    rw [outcome, Grammar.meaning_traced, Parser.traced, hs, if_neg Bool.false_ne_true,
      Run.bind_returned h]
    exact Run.bind_raised hb
  | map =>
    rw [outcome, Grammar.meaning_map]
    exact Run.bind_raised hb
  | chainBody =>
    rw [outcome, Grammar.meaning_chain]
    exact Run.bind_raised hb
  | chainNext h ht hv =>
    rw [outcome, Grammar.meaning_chain, Parser.chain, Run.bind_returned h, ht,
      if_neg Bool.false_ne_true, bind_assoc, Run.bind_returned hv]
    exact hb
  | errorMap =>
    rw [outcome, Grammar.meaning_errorMap]
    exact Run.bind_raised hb
  | named =>
    rw [outcome, Grammar.meaning_named]
    exact hb
  | lazy h =>
    rw [outcome, Grammar.meaning_lazy]
    exact (Run.bind_returned h).trans hb
  | rule h =>
    rw [outcome, Grammar.meaning_rule_of_some h]
    exact hb

theorem Reaches.outcome_eq (h : Reaches rules a b) (hb : b.outcome rules = .raised fault k) :
    a.outcome rules = .raised fault k := by
  induction h using ReflTransGen.head_induction_on with
  | refl => exact hb
  | head happlies _ ih => exact happlies.outcome_eq ih

end Application

/-! ### Where a fault comes from -/

namespace Run

variable {α β : Type} {x y : Run α} {f : α → Run β}

/-- The run raises no fault. -/
def Quiet (x : Run α) : Prop := ∀ j fault k, x j ≠ .raised fault k

theorem Quiet.pure (a : α) : (pure a : Run α).Quiet := by
  intro j fault k h
  cases h

theorem Quiet.write (line : String) : (write line).Quiet := by
  intro j fault k h
  cases h

theorem Quiet.debugging : debugging.Quiet := by
  intro j fault k h
  cases h

theorem Quiet.ite {c : Prop} [Decidable c] (hx : x.Quiet) (hy : y.Quiet) :
    (if c then x else y).Quiet := by
  split
  · exact hx
  · exact hy

theorem Quiet.bind (hx : x.Quiet) (hf : ∀ a, (f a).Quiet) : (x >>= f).Quiet := by
  intro j fault k h
  rcases raised_of_bind h with hraised | ⟨a, l, -, hraised⟩
  · exact hx j fault k hraised
  · exact hf a l fault k hraised

/-- What is done with the value raises nothing, so the fault comes before it. -/
theorem Quiet.raised_of_bind (hf : ∀ a, (f a).Quiet) {j k : Journal} {fault : Fault}
    (h : (x >>= f) j = .raised fault k) : x j = .raised fault k := by
  rcases Run.raised_of_bind h with hraised | ⟨a, l, -, hraised⟩
  · exact hraised
  · exact absurd hraised (hf a l fault k)

theorem quiet_debugLine (line : String) : (debugLine line).Quiet :=
  .bind .debugging fun _ => .ite (.write line) (.pure ())

end Run

namespace Parser

open Run (Quiet)

variable {p p' q q' : Parser} {results : List Value} {s : State} {fault : Fault} {j k : Journal}

theorem quiet_literal (text : String) (s : State) : (literal text s).Quiet :=
  .ite (.pure _) (.ite (.pure _) (.ite (.pure _) (.pure _)))

theorem quiet_regex (name : String) (pattern : Pattern) (s : State) :
    (regex name pattern s).Quiet := by
  refine .ite (.pure _) (.ite (.pure _) ?_)
  cases pattern.matchAt s.input s.cursor with
  | none => exact .pure _
  | some stop => exact .ite (.pure _) (.pure _)

theorem quiet_endOfInput (s : State) : (endOfInput s).Quiet :=
  .ite (.pure _) (.ite (.pure _) (.pure _))

theorem quiet_trace (label : String) (s : State) : (trace label s).Quiet := by
  refine .bind .debugging fun debug => ?_
  exact .ite (.bind (.write _) fun _ => .pure _) (.pure _)

/-- A loop that faults does so in one of its rounds, behind rounds that have ended. -/
theorem round_of_collect_raised (hp : Parser.Extends p p') {fuel : Nat}
    (h : collect p fuel results s j = .raised fault k) :
    ∃ t l, ReflTransGen p'.Round (s, j) (t, l) ∧ p t l = .raised fault k := by
  induction fuel generalizing results s j with
  | zero => cases h
  | succ fuel ih =>
    rw [collect] at h
    rcases Run.raised_of_bind h with hfault | ⟨t, l, ht, hrest⟩
    · exact ⟨s, j, .refl, hfault⟩
    · obtain ⟨hok, hrest⟩ := Run.raised_of_ite_pure hrest
      obtain ⟨hmoved, hrest⟩ := Run.raised_of_ite_pure hrest
      obtain ⟨u, m, hrounds, hfault⟩ := ih hrest
      have hround : p'.Round (s, j) (t, l) := ⟨(hp s).returned ht, by simpa using hok, hmoved⟩
      exact ⟨u, m, .head hround hrounds, hfault⟩

theorem round_of_collectSeparated_raised (hp : Parser.Extends p p') (hq : Parser.Extends q q')
    {fuel : Nat} (h : collectSeparated p q fuel results s j = .raised fault k) :
    ∃ t l, ReflTransGen (p'.SeparatedRound q') (s, j) (t, l) ∧
      (q t l = .raised fault k ∨
        ∃ u m, q' t l = .returned u m ∧ u.isError = false ∧ p u m = .raised fault k) := by
  induction fuel generalizing results s j with
  | zero => cases h
  | succ fuel ih =>
    rw [collectSeparated] at h
    rcases Run.raised_of_bind h with hfault | ⟨t, l, ht, hrest⟩
    · exact ⟨s, j, .refl, .inl hfault⟩
    · obtain ⟨hfailed, hrest⟩ := Run.raised_of_ite_pure hrest
      have hok : t.isError = false := by simpa using hfailed
      have hvalue : q' s j = .returned t l := (hq s).returned ht
      rcases Run.raised_of_bind hrest with hfault | ⟨u, m, hu, hmore⟩
      · exact ⟨s, j, .refl, .inr ⟨t, l, hvalue, hok, hfault⟩⟩
      · obtain ⟨hends, hmore⟩ := Run.raised_of_ite_pure hmore
        obtain ⟨hgoes, hmoved⟩ : u.isError = false ∧ u.cursor ≠ s.cursor := by
          simpa using hends
        obtain ⟨v, n, hrounds, hfault⟩ := ih hmore
        have hround : p'.SeparatedRound q' (s, j) (u, m) :=
          ⟨t, l, hvalue, hok, (hp t).returned hu, hgoes, hmoved⟩
        exact ⟨v, n, .head hround hrounds, hfault⟩

end Parser

namespace Grammar

variable {rules : Rules} {parts : List Grammar} {results : List Value} {s : State}
  {fault : Fault} {fuel : Nat} {j k : Journal}

theorem part_of_sequenceFrom_raised
    (h : Parser.sequenceFrom (parts.map (parser rules fuel)) results s j = .raised fault k) :
    ∃ before part after t l, parts = before ++ part :: after ∧ Threads rules before s j t l ∧
      part.parser rules fuel t l = .raised fault k := by
  induction parts generalizing results s j with
  | nil => cases h
  | cons part parts ih =>
    rw [List.map_cons, Parser.sequenceFrom] at h
    rcases Run.raised_of_bind h with hfault | ⟨t, l, ht, hrest⟩
    · exact ⟨[], part, parts, s, j, rfl, .nil s j, hfault⟩
    · obtain ⟨hok, hrest⟩ := Run.raised_of_goesOn hrest
      obtain ⟨before, last, after, u, m, rfl, hthreads, hfault⟩ := ih hrest
      have hpart := (parser_extends_meaning rules fuel part s).returned ht
      exact ⟨part :: before, last, after, u, m, rfl, .cons hpart hok hthreads, hfault⟩

theorem alternative_of_choiceFrom_raised
    (h : Parser.choiceFrom (parts.map (parser rules fuel)) s j = .raised fault k) :
    ∃ before part after l, parts = before ++ part :: after ∧ Rejected rules s before j l ∧
      part.parser rules fuel s l = .raised fault k := by
  induction parts generalizing j with
  | nil => cases h
  | cons part parts ih =>
    rw [List.map_cons, Parser.choiceFrom] at h
    rcases Run.raised_of_bind h with hfault | ⟨t, l, ht, hrest⟩
    · exact ⟨[], part, parts, j, rfl, .nil j, hfault⟩
    · cases hfailed : t.isError with
      | true =>
        rw [if_pos hfailed] at hrest
        obtain ⟨before, last, after, m, rfl, hrejected, hfault⟩ := ih hrest
        have hpart := (parser_extends_meaning rules fuel part s).returned ht
        exact ⟨part :: before, last, after, m, rfl, .cons hpart hfailed hrejected, hfault⟩
      | false =>
        rw [hfailed, if_neg Bool.false_ne_true] at hrest
        cases hrest

end Grammar

namespace Grammar

/-- What stands between two delimiters is there to be picked. -/
theorem pick_middle_ne_raised {rules : Rules} {left content right : Grammar} {s t : State}
    {fault : Fault} {j k l : Journal}
    (h : (sequence [left, content, right]).meaning rules s j = .returned t k)
    (ht : t.isError = false) : (pick 1 t.result).run k ≠ .raised fault l := by
  intro hraised
  rw [meaning_sequence] at h
  obtain ⟨v, hv⟩ := Parser.ensures_pick_middle _ _ _ s j t k h ht
  rw [Run.response_raised hraised] at hv
  cases hv

end Grammar

namespace Application

variable {rules : Rules} {a : Application} {fault : Fault} {k : Journal}

/-- How the application ends with so much fuel. -/
def outcomeWith (rules : Rules) (fuel : Nat) (a : Application) : Outcome State :=
  a.grammar.parser rules fuel a.state a.journal

/-- **One step**: an application that faults does so itself, or what it applies does. -/
theorem faults_or_applies {fuel : Nat} (h : a.outcomeWith rules (fuel + 1) = .raised fault k) :
    Faults rules a fault k ∨
      ∃ b, Applies rules a b ∧ b.outcomeWith rules fuel = .raised fault k := by
  obtain ⟨g, s, j⟩ := a
  have hreturned : ∀ {g : Grammar} {t : State} {l : Journal},
      g.parser rules fuel s j = .returned t l → g.meaning rules s j = .returned t l :=
    fun {g} => (Grammar.parser_extends_meaning rules fuel g s).returned
  simp only [outcomeWith] at h
  cases g with
  | custom name step => exact .inl (.step h)
  | literal text => exact absurd h (Parser.quiet_literal text s j fault k)
  | regex name pattern => exact absurd h (Parser.quiet_regex name pattern s j fault k)
  | succeed value => exact absurd h (Run.Quiet.ite (.pure _) (.pure _) j fault k)
  | fail message => exact absurd h (Run.Quiet.ite (.pure _) (.pure _) j fault k)
  | endOfInput => exact absurd h (Parser.quiet_endOfInput s j fault k)
  | trace label => exact absurd h (Parser.quiet_trace label s j fault k)
  | sequence parts =>
    obtain ⟨hs, hfault⟩ := Run.raised_of_goesOn h
    obtain ⟨before, part, after, t, l, rfl, hthreads, hfault⟩ :=
      Grammar.part_of_sequenceFrom_raised hfault
    exact .inr ⟨_, .sequence hs hthreads, hfault⟩
  | choice alternatives =>
    obtain ⟨hs, hfault⟩ := Run.raised_of_goesOn h
    obtain ⟨before, part, after, l, rfl, hrejected, hfault⟩ :=
      Grammar.alternative_of_choiceFrom_raised hfault
    exact .inr ⟨_, .choice hs hrejected, hfault⟩
  | many item =>
    simp only [Grammar.parser, Parser.many] at h
    obtain ⟨hs, hfault⟩ := Run.raised_of_goesOn h
    have hcollect := Run.Quiet.raised_of_bind (fun _ => .pure _) hfault
    obtain ⟨t, l, hrounds, hitem⟩ :=
      Parser.round_of_collect_raised (Grammar.parser_extends_meaning rules fuel item) hcollect
    exact .inr ⟨_, .many hs hrounds, hitem⟩
  | many1 item =>
    simp only [Grammar.parser, Parser.many1] at h
    obtain ⟨hs, hfault⟩ := Run.raised_of_goesOn h
    have hcollect := Run.Quiet.raised_of_bind (fun _ => .ite (.pure _) (.pure _)) hfault
    obtain ⟨t, l, hrounds, hitem⟩ :=
      Parser.round_of_collect_raised (Grammar.parser_extends_meaning rules fuel item) hcollect
    exact .inr ⟨_, .many1 hs hrounds, hitem⟩
  | sepBy separator value =>
    simp only [Grammar.parser, Parser.sepBy] at h
    obtain ⟨hs, hfault⟩ := Run.raised_of_goesOn h
    have hcollect := Run.Quiet.raised_of_bind (fun _ => .pure _) hfault
    obtain ⟨t, l, hrounds, hvalue | ⟨u, m, hvalue, hu, hseparator⟩⟩ :=
      Parser.round_of_collectSeparated_raised (Grammar.parser_extends_meaning rules fuel separator)
        (Grammar.parser_extends_meaning rules fuel value) hcollect
    · exact .inr ⟨_, .sepByValue hs hrounds, hvalue⟩
    · exact .inr ⟨_, .sepBySeparator hs hrounds hvalue hu, hseparator⟩
  | sepBy1 separator value =>
    simp only [Grammar.parser, Parser.sepBy1] at h
    obtain ⟨hs, hfault⟩ := Run.raised_of_goesOn h
    have hcollect := Run.Quiet.raised_of_bind (fun _ => .ite (.pure _) (.pure _)) hfault
    obtain ⟨t, l, hrounds, hvalue | ⟨u, m, hvalue, hu, hseparator⟩⟩ :=
      Parser.round_of_collectSeparated_raised (Grammar.parser_extends_meaning rules fuel separator)
        (Grammar.parser_extends_meaning rules fuel value) hcollect
    · exact .inr ⟨_, .sepBy1Value hs hrounds, hvalue⟩
    · exact .inr ⟨_, .sepBy1Separator hs hrounds hvalue hu, hseparator⟩
  | traced label body =>
    simp only [Grammar.parser, Parser.traced] at h
    obtain ⟨hs, hfault⟩ := Run.raised_of_goesOn h
    rcases Run.raised_of_bind hfault with hline | ⟨_, l, hline, hrest⟩
    · exact absurd hline (Run.quiet_debugLine _ j fault k)
    · refine .inr ⟨_, .traced hs hline, ?_⟩
      apply Run.Quiet.raised_of_bind _ hrest
      exact fun t => .ite (.bind (Run.quiet_debugLine _) fun _ => .pure _) (.pure _)
  | map body f =>
    simp only [Grammar.parser, Parser.map] at h
    rcases Run.raised_of_bind h with hbody | ⟨t, l, ht, hrest⟩
    · exact .inr ⟨_, .map, hbody⟩
    · obtain ⟨hok, hcall⟩ := Run.raised_of_goesOn hrest
      have hraised := Run.Quiet.raised_of_bind (fun _ => .pure _) hcall
      have hpick : ¬Grammar.Picks body f := by
        rintro ⟨rfl, left, content, right, rfl⟩
        exact Grammar.pick_middle_ne_raised (hreturned ht) hok hraised
      exact .inl (.function hpick (hreturned ht) hok hraised)
  | chain body prepare next =>
    simp only [Grammar.parser, Parser.chain] at h
    rcases Run.raised_of_bind h with hbody | ⟨t, l, ht, hrest⟩
    · exact .inr ⟨_, .chainBody, hbody⟩
    · obtain ⟨hok, hrest⟩ := Run.raised_of_goesOn hrest
      rw [bind_assoc] at hrest
      rcases Run.raised_of_bind hrest with hprepare | ⟨v, m, hv, hnext⟩
      · exact .inl (.continuation (hreturned ht) hok hprepare)
      · exact .inr ⟨_, .chainNext (hreturned ht) hok hv, hnext⟩
  | errorMap body handler =>
    simp only [Grammar.parser, Parser.errorMap] at h
    rcases Run.raised_of_bind h with hbody | ⟨t, l, ht, hrest⟩
    · exact .inr ⟨_, .errorMap, hbody⟩
    · cases herror : t.error with
      | none =>
        rw [herror] at hrest
        cases hrest
      | some e =>
        rw [herror] at hrest
        have hcall := Run.Quiet.raised_of_bind (fun _ => .pure _) hrest
        exact .inl (.handler (hreturned ht) herror hcall)
  | named body name => exact .inr ⟨_, .named, h⟩
  | lazy touch body =>
    simp only [Grammar.parser, Parser.lazy, bind_assoc] at h
    rcases Run.raised_of_bind h with htouch | ⟨_, l, htouch, hbody⟩
    · exact .inl (.thunk htouch)
    · exact .inr ⟨_, .lazy htouch, hbody⟩
  | rule name =>
    cases hname : rules.lookup name with
    | none =>
      simp only [Grammar.parser, hname] at h
      cases h
      exact .inl (.unknown hname)
    | some body =>
      simp only [Grammar.parser, hname] at h
      exact .inr ⟨_, .rule hname, h⟩

/-- A fault is one of an application that is reached. -/
theorem reaches_fault {fuel : Nat} (h : a.outcomeWith rules fuel = .raised fault k) :
    ∃ b, Reaches rules a b ∧ Faults rules b fault k := by
  induction fuel generalizing a with
  | zero => cases h
  | succ fuel ih =>
    rcases faults_or_applies h with hfaults | ⟨b, happlies, hb⟩
    · exact ⟨a, .refl, hfaults⟩
    · obtain ⟨c, hreaches, hfaults⟩ := ih hb
      exact ⟨c, .head happlies hreaches, hfaults⟩

end Application

namespace Grammar

variable {rules : Rules} {g : Grammar} {s t : State} {fault : Fault} {j k : Journal}

/-- **A grammar raises exactly the faults of the applications that are reached.** -/
theorem raises_iff : g.meaning rules s j = .raised fault k ↔
    ∃ a, Application.Reaches rules ⟨g, s, j⟩ a ∧ a.Faults rules fault k := by
  constructor
  · intro h
    have hanswer : Outcome.raised fault k ≠ (.exhausted : Outcome State) := nofun
    obtain ⟨fuel, hfuel⟩ := (meaning_eq_iff rules hanswer).mp h
    exact Application.reaches_fault hfuel
  · rintro ⟨a, hreaches, hfaults⟩
    exact hreaches.outcome_eq hfaults.outcome_eq

/-- What a grammar returns, it returns without a fault anywhere. -/
theorem calm_of_returned (h : g.meaning rules s j = .returned t k) :
    Application.Calm rules ⟨g, s, j⟩ := by
  intro a fault l hreaches hfaults
  rw [raises_iff.mpr ⟨a, hreaches, hfaults⟩] at h
  cases h

end Grammar

end Descent
