/-
  Descent/Proofs/Repetition.lean
  ==============================
  **The loop and the recursion.**

  A textbook has no loop for "zero or more of these": it has a rule that is one of these
  and then the rule again, or nothing (`Grammar.recursion`).  `many` is a loop that keeps
  its results behind one another and goes back to the last good state.  If every success
  of what is repeated moves the cursor forward, the two answer the same
  (`Grammar.many_is_recursion`): the same state in all fields, the same fault, the same
  journal, or neither has an answer.

  A round of the loop is a turn of the recursion (`many_succ_eq_oneMore`).  With some
  rounds the loop answers nothing that the recursion does not answer, since the recursion
  solves the equation of a turn, and with some fuel the recursion answers nothing that the
  loop does not.  No measure is needed for that; it is only needed for the loop to come to
  an end.
-/
import Descent.Proofs.LeftRecursion
import Descent.Proofs.Rounds

namespace Descent

namespace Grammar

/-- Puts a value in front of a list of values. -/
def prepend (first : Value) : Value → Response Value
  | .list rest => pure (.list (first :: rest))
  | v => Response.raise (.user ("not a list: " ++ v.literal))

/-- What the rule of this name has to stand for to be zero or more of the items: an item
    and then the rule again, or nothing. -/
def recursion (name : String) (item : Grammar) : Grammar :=
  .choice [.chain item pure fun first => .map (ref name) (prepend first), .succeed (.list [])]

end Grammar

namespace Parser

open Run (Ensures)

variable {p q rest rest' : Parser} {s t : State} {results : List Value} {j k : Journal}

/-- Every success moves the cursor forward, and not out of the text. -/
def Forward (p : Parser) : Prop :=
  ∀ s : State, s.isError = false → (p s).Ensures fun t =>
    t.isError = false → s.cursor < t.cursor ∧ t.cursor ≤ max s.cursor s.input.size

/-- No success moves the cursor back, nor out of the text. -/
def Onward (p : Parser) : Prop :=
  ∀ s : State, s.isError = false → (p s).Ensures fun t =>
    t.isError = false → s.cursor ≤ t.cursor ∧ t.cursor ≤ max s.cursor s.input.size

/-- Every application to a state that has not failed returns a state, with the same text. -/
def Returns (p : Parser) : Prop :=
  ∀ s : State, s.isError = false → ∀ j, ∃ t k, p s j = .returned t k ∧ t.input = s.input

theorem Forward.onward (hp : p.Forward) : p.Onward := by
  intro s hs j t k h hok
  obtain ⟨hlt, hbound⟩ := hp s hs j t k h hok
  exact ⟨Nat.le_of_lt hlt, hbound⟩

theorem forward_of_reads (hp : Keeps State.Reads p) : p.Forward := by
  intro s _ j t k h hok
  have hreads := hp s j t k h
  exact ⟨hreads.lt hok, hreads.advances.bound⟩

/-! ### The results so far -/

/-- The results so far are put in front of those to come, and have no other use. -/
theorem collect_accumulates (p : Parser) (fuel : Nat) (results : List Value) (s : State) :
    collect p fuel results s = (do
      let harvest ← collect p fuel [] s
      pure { harvest with results := results.reverse ++ harvest.results }) := by
  induction fuel generalizing results s with
  | zero => rfl
  | succ fuel ih =>
    rw [collect, collect, bind_assoc]
    refine bind_congr fun t => ?_
    by_cases hfailed : t.isError = true
    · simp [hfailed]
    by_cases hstays : t.cursor = s.cursor
    · simp [hfailed, hstays]
    · rw [if_neg hfailed, if_neg hfailed, if_neg hstays, if_neg hstays, ih (t.result :: results),
        ih [t.result], bind_assoc]
      simp

theorem gather_accumulates (p : Parser) (results : List Value) (s : State) :
    gather p results s = (do
      let harvest ← gather p [] s
      pure { harvest with results := results.reverse ++ harvest.results }) := by
  rw [gather, gather, ← Run.limit_bind_left (collect_rising p [] s)]
  simp only [← collect_accumulates]

/-- The state that a loop ends with is one that it could have gone on from. -/
theorem ensures_collect_ok (p : Parser) (fuel : Nat) (results : List Value)
    (hs : s.isError = false) :
    (collect p fuel results s).Ensures fun harvest => harvest.state.isError = false := by
  induction fuel generalizing results s with
  | zero => exact .exhausted
  | succ fuel ih =>
    rw [collect]
    refine .bind (.trivial _) fun t _ => .ite (fun _ => .pure hs) fun hgoes => ?_
    have ht : t.isError = false := by simpa using hgoes
    exact .ite (fun _ => .pure ht) fun _ => ih (t.result :: results) ht

/-! ### Rounds and turns -/

/-- One turn of the recursion: an occurrence of `p` in front of what `rest` yields, or
    nothing. -/
def oneMore (p rest : Parser) : Parser :=
  choice [p.chain fun first => pure (rest.map fun v => (Grammar.prepend first v).run),
    succeed (.list [])]

theorem oneMore_failed (hs : s.isError = true) : oneMore p rest s = pure s := by
  rw [oneMore, choice, if_pos hs]

/-- The recursion falls back on nothing where `p` fails, and where `rest` fails behind it. -/
theorem oneMore_eq (hs : s.isError = false) :
    oneMore p rest s = (do
      let t ← p s
      if t.isError then pure (s.withResult (.list []))
      else do
        let u ← rest.map (fun v => (Grammar.prepend t.result v).run) t
        if u.isError then pure (s.withResult (.list [])) else pure u) := by
  rw [oneMore, choice_succeed_eq hs, chain, bind_assoc]
  refine bind_congr fun t => ?_
  cases ht : t.isError with
  | true => simp [ht]
  | false => simp

theorem oneMore_extends (hp : Parser.Extends p q) (hrest : Parser.Extends rest rest') :
    Parser.Extends (oneMore p rest) (oneMore q rest') := by
  intro s
  cases hs : s.isError with
  | true =>
    rw [oneMore_failed hs, oneMore_failed hs]
    exact .refl _
  | false =>
    rw [oneMore_eq hs, oneMore_eq hs]
    refine (hp s).bind fun t => .ite (.refl _) ?_
    exact (map_extends hrest t).bind fun _ => .refl _

/-- **A round of the loop is a turn of the recursion.**  A success has moved the cursor,
    so the loop does not end there, and what the rest of the loop ends with has not failed,
    so the recursion does not fall back. -/
theorem many_succ_eq_oneMore (hp : p.Forward) (fuel : Nat) :
    many (fuel + 1) p = oneMore p (many fuel p) := by
  funext s
  cases hs : s.isError with
  | true => rw [oneMore_failed hs, many, if_pos hs]
  | false =>
    rw [oneMore_eq hs, many, hs, if_neg Bool.false_ne_true, collect, bind_assoc]
    simp only [Run.ite_pure_bind]
    refine (hp s hs).bind_ok_congr fun t ht hok => ?_
    have hmoved : t.cursor ≠ s.cursor := Nat.ne_of_gt (ht hok).1
    rw [if_neg hmoved, collect_accumulates, map, many, hok, if_neg Bool.false_ne_true, bind_assoc,
      bind_assoc, bind_assoc]
    refine (ensures_collect_ok p fuel [] hok).bind_congr fun harvest hharvest => ?_
    simp [State.withResult, hharvest, Grammar.prepend]
    rfl

/-- What solves the equation of a turn answers whatever the loop answers. -/
theorem many_extends_of_oneMore (hp : p.Forward) (hrest : rest = oneMore p rest) (fuel : Nat) :
    Parser.Extends (many fuel p) rest := by
  induction fuel with
  | zero =>
    intro s
    cases hs : s.isError with
    | true =>
      rw [hrest, oneMore_failed hs, many, if_pos hs]
      exact .refl _
    | false =>
      rw [many, hs, if_neg Bool.false_ne_true]
      exact .of_exhausted _
  | succ fuel ih =>
    rw [many_succ_eq_oneMore hp, hrest]
    exact oneMore_extends (.refl p) ih

theorem repeated_eq_limit (p : Parser) : repeated p = limit fun fuel => many fuel p := by
  rw [limit_many fun _ => .refl p, limit_const]

/-! ### One occurrence at least -/

/-- Behind a success there is a result, so the two loops do the same. -/
theorem repeated1_eq_repeated (hs : s.isError = false) (h : p s j = .returned t k)
    (ht : t.isError = false) : repeated1 p s j = repeated p s j := by
  rw [repeated1, repeated, hs, if_neg Bool.false_ne_true, if_neg Bool.false_ne_true, gather_eq,
    bind_assoc, bind_assoc, Run.bind_returned h, Run.bind_returned h, ht,
    if_neg Bool.false_ne_true]
  by_cases hstays : t.cursor = s.cursor
  · rw [if_pos hstays]
    rfl
  · rw [if_neg hstays, gather_accumulates, bind_assoc, bind_assoc]
    rfl

/-! ### The loops come to an end -/

theorem Onward.steady (hp : p.Onward) (hreturns : p.Returns) : p.Steady := by
  intro s hs j
  obtain ⟨t, k, h, hinput⟩ := hreturns s hs j
  exact ⟨t, k, h, fun hok => ⟨hinput, hp s hs j t k h hok⟩⟩

theorem repeated_returns (hp : p.Onward) (hreturns : p.Returns) (hs : s.isError = false)
    (j : Journal) : ∃ t k, repeated p s j = .returned t k ∧ t.isError = false := by
  obtain ⟨t, k, h, hgathered, -⟩ := repeated_gathers (hp.steady hreturns) hs j
  exact ⟨t, k, h, hgathered.ok⟩

theorem separated_returns (hp : p.Onward) (hq : q.Onward) (hpreturns : p.Returns)
    (hqreturns : q.Returns) (hs : s.isError = false) (j : Journal) :
    ∃ t k, separated p q s j = .returned t k ∧ t.isError = false := by
  obtain ⟨t, k, h, hgathered, -⟩ :=
    separated_gathers (hp.steady hpreturns) (hq.steady hqreturns) hs j
  exact ⟨t, k, h, hgathered.ok⟩

theorem separated1_returns (hp : p.Onward) (hq : q.Onward) (hpreturns : p.Returns)
    (hqreturns : q.Returns) (hs : s.isError = false) (j : Journal) :
    ∃ t k, separated1 p q s j = .returned t k := by
  obtain ⟨harvest, k, -, -, hrounds⟩ :=
    collectSeparated_returns (hp.steady hpreturns) (hq.steady hqreturns) hs [] j
  have h := ((collectSeparated_rising p q [] s).extends_limit _).returned hrounds
  rcases List.eq_nil_or_concat harvest.results with hnone | ⟨before, v, hsome⟩
  · obtain ⟨message, hfailed⟩ := separated1_of_nothing hs h hnone
    exact ⟨_, k, hfailed⟩
  · exact ⟨_, k, separated1_of_gather hs h (by simp [hsome])⟩

end Parser

namespace Grammar

variable {rules : Rules} {name : String} {item : Grammar} {s : State}

theorem parser_ref_recursion (hname : rules.lookup name = some (recursion name item)) (fuel : Nat) :
    (ref name).parser rules (fuel + 5)
      = Parser.oneMore (item.parser rules (fuel + 1)) ((ref name).parser rules fuel) := by
  have hrule : (ref name).parser rules (fuel + 5) = (rule name).parser rules (fuel + 4) := rfl
  rw [hrule, parser, hname]
  rfl

/-- The recursion solves the equation of a turn. -/
theorem meaning_ref_recursion (hname : rules.lookup name = some (recursion name item)) :
    (ref name).meaning rules
      = Parser.oneMore (item.meaning rules) ((ref name).meaning rules) := by
  have hrule : (ref name).meaning rules = (rule name).meaning rules := by
    rw [ref, meaning_lazy]
    rfl
  rw [meaning_rule_of_some hname, recursion, meaning_choice] at hrule
  simp only [List.map_cons, List.map_nil, meaning_chain, meaning_map, meaning_succeed] at hrule
  exact hrule

theorem meaning_many_eq_recursion (hname : rules.lookup name = some (recursion name item))
    (hitem : (item.meaning rules).Forward) :
    (many item).meaning rules = (ref name).meaning rules := by
  have hrounds : ∀ fuel, Parser.Extends (Parser.many fuel (item.meaning rules))
      ((ref name).meaning rules) :=
    Parser.many_extends_of_oneMore hitem (meaning_ref_recursion hname)
  have hturns : ∀ fuel, Parser.Extends ((ref name).parser rules fuel)
      (Parser.many fuel (item.meaning rules)) := by
    intro fuel
    induction fuel with
    | zero => exact fun s => .of_exhausted _
    | succ fuel ih =>
      -- A turn of the recursion is five nodes deep, a round of the loop takes one unit.
      intro s
      refine (parser_add rules (fuel + 1) 4 (ref name) s).trans ?_
      rw [parser_ref_recursion hname, Parser.many_succ_eq_oneMore hitem]
      exact Parser.oneMore_extends (parser_extends_meaning rules (fuel + 1) item) ih s
  have hrising : Parser.Rising fun fuel => Parser.many fuel (item.meaning rules) :=
    Parser.many_extends (.refl _)
  rw [meaning_many, Parser.repeated_eq_limit]
  funext s
  apply Run.Extends.antisymm
  · exact Run.limit_extends fun fuel => hrounds fuel s
  · exact Run.limit_extends fun fuel => (hturns fuel s).trans
      ((hrising.apply s).extends_limit fuel)

/-- **The loop is the recursion**, for items whose every success moves the cursor forward.
    From a state that has not failed `many` and the rule that stands for an item and
    itself, or for nothing, end the same way: with the same state in all fields, or with
    the same fault.  `many1` ends as they do if the first item succeeds; if it fails, it
    fails where it started.  And if the items always return, so does the loop, and it has
    not failed. -/
theorem many_is_recursion (hname : rules.lookup name = some (recursion name item))
    (hitem : (item.meaning rules).Forward) (hs : s.isError = false) (j : Journal) :
    (∃ n, ∀ fuel, n ≤ fuel →
      (many item).parser rules fuel s j = (ref name).parser rules fuel s j) ∧
    (∀ t k, Run.SettlesOn (fun fuel => item.parser rules fuel s) j (.returned t k) →
      (t.isError = false → ∃ n, ∀ fuel, n ≤ fuel →
        (many1 item).parser rules fuel s j = (ref name).parser rules fuel s j) ∧
      (t.isError = true → ∃ message,
        Run.SettlesOn (fun fuel => (many1 item).parser rules fuel s) j
          (.returned (s.fail .repetitionEmpty message) k))) ∧
    ((item.meaning rules).Returns → ∃ t k,
      Run.SettlesOn (fun fuel => (many item).parser rules fuel s) j (.returned t k) ∧
        t.isError = false) := by
  have hsame : (many item).meaning rules s j = (ref name).meaning rules s j := by
    rw [meaning_many_eq_recursion hname hitem]
  refine ⟨exists_fuel_of_meaning hsame, ?_, ?_⟩
  · intro t k hfirst
    rw [settlesOn_iff] at hfirst
    constructor
    · intro hok
      apply exists_fuel_of_meaning (T := Eq)
      rw [← hsame, meaning_many1, meaning_many]
      exact Parser.repeated1_eq_repeated hs hfirst hok
    · intro hfailed
      obtain ⟨message, hmessage⟩ :=
        Parser.repeated1_of_nothing hs (Parser.gather_failed hfirst hfailed) rfl
      refine ⟨message, (settlesOn_iff rules).mpr ?_⟩
      rw [meaning_many1]
      exact hmessage
  · intro hreturns
    obtain ⟨t, k, h, hok⟩ := Parser.repeated_returns hitem.onward hreturns hs j
    refine ⟨t, k, (settlesOn_iff rules).mpr ?_, hok⟩
    rw [meaning_many]
    exact h

/-! ### A table with a recursion -/

/-- Zero or more pairs, as a recursion. -/
def pairs : Rules := [("pairs", recursion "pairs" (.literal "ab"))]

theorem literal_forward {text : String} (htext : text ≠ "") :
    ((literal text).meaning rules).Forward := by
  rw [meaning_literal]
  exact Parser.forward_of_reads (Parser.literal_reads htext)

theorem literal_returns (text : String) : ((literal text).meaning rules).Returns := by
  intro s hs j
  rw [meaning_literal, Parser.literal, hs, if_neg Bool.false_ne_true]
  split
  · exact ⟨_, j, rfl, rfl⟩
  · split
    · exact ⟨_, j, rfl, rfl⟩
    · exact ⟨_, j, rfl, rfl⟩

/-- Two pairs, from the second character on; at the first there is none. -/
theorem pairs_many_is_recursion :
    pairs.lookup "pairs" = some (recursion "pairs" (.literal "ab")) ∧
      ((literal "ab").meaning pairs).Forward ∧
      (∃ n, ∀ fuel, n ≤ fuel → (many (.literal "ab")).parser pairs fuel
          { input := Text.ofString "xababa", cursor := 1 } {}
        = (ref "pairs").parser pairs fuel { input := Text.ofString "xababa", cursor := 1 } {}) ∧
      (∃ n, ∀ fuel, n ≤ fuel → (many1 (.literal "ab")).parser pairs fuel
          { input := Text.ofString "xababa", cursor := 1 } {}
        = (ref "pairs").parser pairs fuel { input := Text.ofString "xababa", cursor := 1 } {}) ∧
      (∃ message, Run.SettlesOn
        (fun fuel => (many1 (.literal "ab")).parser pairs fuel (State.initial (Text.ofString "xab")))
        {} (.returned ((State.initial (Text.ofString "xab")).fail .repetitionEmpty message) {})) ∧
      ∃ t k, Run.SettlesOn
        (fun fuel => (many (.literal "ab")).parser pairs fuel
          { input := Text.ofString "xababa", cursor := 1 }) {} (.returned t k) ∧
        t.isError = false := by
  have hname : pairs.lookup "pairs" = some (recursion "pairs" (.literal "ab")) := rfl
  have hitem : ((literal "ab").meaning pairs).Forward := literal_forward (by decide)
  obtain ⟨hsame, hfirst, hreturns⟩ := many_is_recursion hname hitem
    (s := { input := Text.ofString "xababa", cursor := 1 }) rfl {}
  obtain ⟨-, hnone, -⟩ := many_is_recursion hname hitem
    (s := State.initial (Text.ofString "xab")) rfl {}
  refine ⟨hname, hitem, hsame, ?_, ?_, hreturns (literal_returns "ab")⟩
  · have hpair : (literal "ab").meaning pairs { input := Text.ofString "xababa", cursor := 1 } {}
        = .returned { input := Text.ofString "xababa", cursor := 3, result := .str "ab" } {} := by
      rw [meaning_literal]
      rfl
    exact (hfirst _ {} ((settlesOn_iff pairs).mpr hpair)).1 rfl
  · obtain ⟨t, hpair, hfailed⟩ : ∃ t, (literal "ab").meaning pairs
        (State.initial (Text.ofString "xab")) {} = .returned t {} ∧ t.isError = true := by
      rw [meaning_literal]
      exact ⟨_, rfl, rfl⟩
    exact (hnone t {} ((settlesOn_iff pairs).mpr hpair)).2 hfailed

end Grammar

end Descent
