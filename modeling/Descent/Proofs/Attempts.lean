/-
  Descent/Proofs/Attempts.lean
  ============================
  **A failed attempt leaves nothing behind.**

  A choice and the four loops apply parsers to see whether they succeed.  They hold
  several states at that time: the one they started from, the last good one, the attempt,
  and the state behind the separator.  What a failed attempt has made of its state must
  not get into the one that is returned.

  So let the failed attempts be anything.  Two parsers that succeed on the same states,
  with the same states, may fail in different places, with different errors and results;
  none of that makes a difference to the operations that try them
  (`Grammar.failed_attempts_leave_nothing_behind`), whether they succeed in the end or
  fail.  `Coupling.attempts` relates what such parsers return.
-/
import Descent.Grammar.Probe
import Descent.Proofs.Ahead
import Descent.Proofs.Rewriting

namespace Descent

/-- Both states are one and the same success, or both have failed, in whatever ways. -/
def State.SameSuccess (s t : State) : Prop :=
  s.isError = t.isError ∧ (s.isError = false → s = t)

theorem State.sameSuccess_of_failed {s t : State} (hs : s.isError = true)
    (ht : t.isError = true) : s.SameSuccess t :=
  ⟨hs.trans ht.symm, fun hok => absurd (hok.symm.trans hs) Bool.false_ne_true⟩

/-- The outcomes make a pair, whatever the journals hold. -/
abbrev Outcome.EndAlike (R : State → State → Prop) (o o' : Outcome State) : Prop :=
  o.Paired (fun _ _ => True) R o'

/-- Evaluations from one and the same state, in which failed states may differ. -/
def Coupling.attempts : Coupling :=
  { Coupling.identity.regardless with
    after := State.SameSuccess
    withResult := by
      rintro s _ ⟨rfl, -⟩ v
      exact ⟨rfl, fun _ => rfl⟩
    fail := by
      rintro s _ ⟨rfl, -⟩ kind message
      exact ⟨rfl, fun _ => rfl⟩
    isError_eq := fun h => h.1
    result_eq := fun h ok => by rw [h.2 ok]
    goesOn := fun h ok => ⟨h.2 ok, ok⟩ }

namespace Parser

open Coupling (attempts)

/-- On every state that has not failed the parsers return the same success, or both fail,
    or both raise one and the same fault, or neither has an answer. -/
def SuccessEqual (p q : Parser) : Prop :=
  ∀ s : State, s.isError = false → ∀ j k, (p s j).EndAlike State.SameSuccess (q s k)

/-- Applied to a state that has not failed the parser returns a state, whichever. -/
def Total (p : Parser) : Prop :=
  ∀ s : State, s.isError = false → ∀ j, ∃ t k, p s j = .returned t k

variable {p q value value' sep sep' : Parser} {ps qs : List Parser} {s : State}

theorem SuccessEqual.symm (h : SuccessEqual p q) : SuccessEqual q p := by
  intro s hs j k
  refine (h s hs k j).symm (fun t u htu => ⟨htu.1.symm, fun hu => ?_⟩) fun _ _ h => h
  exact (htu.2 (htu.1.trans hu)).symm

/-- What the one has returned at some time the other one returns at any time, up to the way
    of failing. -/
theorem SuccessEqual.returned {t : State} {j k : Journal} (h : SuccessEqual p q)
    (hs : s.isError = false) (ht : p s j = .returned t k) (l : Journal) :
    ∃ u m, q s l = .returned u m ∧ t.SameSuccess u := by
  have hpaired := h s hs j l
  rw [ht] at hpaired
  obtain ⟨_, u, _, m, ⟨⟩, hu, hsame, -⟩ | ⟨_, _, _, ⟨⟩, -⟩ | ⟨⟨⟩, -⟩ := hpaired.cases
  exact ⟨u, m, hu, hsame⟩

theorem SuccessEqual.returned_iff {t : State} (h : SuccessEqual p q) (hs : s.isError = false)
    (ht : t.isError = false) (j l : Journal) :
    (∃ k, p s j = .returned t k) ↔ ∃ k, q s l = .returned t k := by
  constructor
  · rintro ⟨k, hk⟩
    obtain ⟨u, m, hu, hsame⟩ := h.returned hs hk l
    exact ⟨m, hsame.2 ht ▸ hu⟩
  · rintro ⟨k, hk⟩
    obtain ⟨u, m, hu, hsame⟩ := h.symm.returned hs hk j
    exact ⟨m, hsame.2 ht ▸ hu⟩

theorem SuccessEqual.mirrors (h : SuccessEqual p q) : attempts.Mirrors p q := by
  rintro s _ ⟨rfl, hs⟩ j k _
  exact (h s hs j k).mirrored

/-! ### Alternatives -/

/-- An alternative that fails is dropped, and the next one is tried where the choice
    started. -/
theorem choiceFrom_endAlike (h : List.Forall₂ SuccessEqual ps qs) (hs : s.isError = false)
    (j k : Journal) : (choiceFrom ps s j).EndAlike Eq (choiceFrom qs s k) := by
  induction h generalizing j k with
  | nil => exact ⟨rfl, True.intro⟩
  | cons hfirst _ ih =>
    refine Run.paired_bind (hfirst s hs j k) (fun _ _ h => h) ?_
    rintro t u j' k' ⟨hfailed, hsame⟩ -
    rw [← hfailed]
    cases ht : t.isError with
    | true => exact ih j' k'
    | false => exact ⟨hsame ht, True.intro⟩

theorem choice_endAlike (h : List.Forall₂ SuccessEqual ps qs) (hs : s.isError = false)
    (j k : Journal) : (choice ps s j).EndAlike Eq (choice qs s k) := by
  rw [choice_eq hs, choice_eq hs]
  exact choiceFrom_endAlike h hs j k

theorem choice_total (h : ∀ p ∈ ps, p.Total) : (choice ps).Total := by
  intro s hs j
  rw [choice_eq hs]
  induction ps generalizing j with
  | nil => exact ⟨_, j, rfl⟩
  | cons p ps ih =>
    obtain ⟨t, k, ht⟩ := h p List.mem_cons_self s hs j
    cases hok : t.isError with
    | true =>
      rw [choiceFrom_failed ht hok]
      exact ih (fun q hq => h q (List.mem_cons_of_mem p hq)) k
    | false => exact ⟨t, k, choiceFrom_ok ht hok⟩

/-! ### Rounds -/

/-- The attempt that ends a loop is not part of what it has gathered. -/
theorem mirrors_gather (h : SuccessEqual p q) (hs : s.isError = false) :
    Run.Mirrors attempts.journals attempts.SameHarvest (gather p [] s) (gather q [] s) :=
  .limit fun fuel => attempts.mirrors_collect h.mirrors fuel [] ⟨rfl, hs⟩

theorem mirrors_gatherSeparated (hsep : SuccessEqual sep sep')
    (hvalue : SuccessEqual value value') (hs : s.isError = false) :
    Run.Mirrors attempts.journals attempts.SameHarvest (gatherSeparated sep value [] s)
      (gatherSeparated sep' value' [] s) :=
  .limit fun fuel =>
    attempts.mirrors_collectSeparated hsep.mirrors hvalue.mirrors fuel [] ⟨rfl, hs⟩

theorem gather_paired (h : SuccessEqual p q) (hs : s.isError = false) (j k : Journal) :
    (gather p [] s j).Paired (fun _ _ => True) attempts.SameHarvest (gather q [] s k) :=
  (mirrors_gather h hs j k True.intro).paired (mirrors_gather h.symm hs k j True.intro)

theorem gatherSeparated_paired (hsep : SuccessEqual sep sep') (hvalue : SuccessEqual value value')
    (hs : s.isError = false) (j k : Journal) :
    (gatherSeparated sep value [] s j).Paired (fun _ _ => True) attempts.SameHarvest
      (gatherSeparated sep' value' [] s k) :=
  (mirrors_gatherSeparated hsep hvalue hs j k True.intro).paired
    (mirrors_gatherSeparated hsep.symm hvalue.symm hs k j True.intro)

/-- What is made of the same harvest is the same. -/
theorem endAlike_of_harvests {x y : Run Harvest} {f : Harvest → Run State} {j k : Journal}
    (h : (x j).Paired (fun _ _ => True) attempts.SameHarvest (y k))
    (hf : ∀ harvest j k, (f harvest j).EndAlike Eq (f harvest k)) :
    ((x >>= f) j).EndAlike Eq ((y >>= f) k) := by
  refine Run.paired_bind h (fun _ _ h => h) ?_
  rintro ⟨results, t⟩ ⟨results', t'⟩ j' k' ⟨hresults, hstate, -⟩ -
  obtain rfl : results = results' := hresults
  obtain rfl : t = t' := hstate
  exact hf _ j' k'

theorem repeated_endAlike (h : SuccessEqual p q) (hs : s.isError = false) (j k : Journal) :
    (repeated p s j).EndAlike Eq (repeated q s k) := by
  rw [repeated, repeated, hs, if_neg Bool.false_ne_true, if_neg Bool.false_ne_true]
  exact endAlike_of_harvests (gather_paired h hs j k) fun _ _ _ => ⟨rfl, True.intro⟩

theorem repeated1_endAlike (h : SuccessEqual p q) (hs : s.isError = false) (j k : Journal) :
    (repeated1 p s j).EndAlike Eq (repeated1 q s k) := by
  rw [repeated1, repeated1, hs, if_neg Bool.false_ne_true, if_neg Bool.false_ne_true]
  refine endAlike_of_harvests (gather_paired h hs j k) fun harvest _ _ => ?_
  cases harvest.results.isEmpty <;> exact ⟨rfl, True.intro⟩

theorem separated_endAlike (hsep : SuccessEqual sep sep') (hvalue : SuccessEqual value value')
    (hs : s.isError = false) (j k : Journal) :
    (separated sep value s j).EndAlike Eq (separated sep' value' s k) := by
  rw [separated, separated, hs, if_neg Bool.false_ne_true, if_neg Bool.false_ne_true]
  exact endAlike_of_harvests (gatherSeparated_paired hsep hvalue hs j k)
    fun _ _ _ => ⟨rfl, True.intro⟩

theorem separated1_endAlike (hsep : SuccessEqual sep sep') (hvalue : SuccessEqual value value')
    (hs : s.isError = false) (j k : Journal) :
    (separated1 sep value s j).EndAlike Eq (separated1 sep' value' s k) := by
  rw [separated1, separated1, hs, if_neg Bool.false_ne_true, if_neg Bool.false_ne_true]
  refine endAlike_of_harvests (gatherSeparated_paired hsep hvalue hs j k) fun harvest _ _ => ?_
  cases harvest.results.isEmpty <;> exact ⟨rfl, True.intro⟩

end Parser

namespace Grammar

variable {rules : Rules} {p q value value' sep sep' : Grammar} {ps qs : List Grammar}

/-- From every state that has not failed the two grammars end alike, given fuel enough: both
    return, states that are related, or both raise one and the same fault, or neither ends. -/
def EndAlike (rules : Rules) (R : State → State → Prop) (p q : Grammar) : Prop :=
  ∀ s : State, s.isError = false → ∀ j, ∃ n, ∀ fuel, n ≤ fuel →
    (p.parser rules fuel s j).EndAlike R (q.parser rules fuel s j)

/-- The grammars succeed on the same states, with the same states.  What they make of a
    state when they fail may be anything. -/
abbrev SuccessEqual (rules : Rules) : Grammar → Grammar → Prop :=
  EndAlike rules State.SameSuccess

theorem SuccessEqual.meaning (h : SuccessEqual rules p q) :
    Parser.SuccessEqual (p.meaning rules) (q.meaning rules) := by
  intro s hs j k
  have hpaired : (p.meaning rules s j).EndAlike State.SameSuccess (q.meaning rules s j) :=
    exists_fuel_iff_meaning.mp (h s hs j)
  have hself : ∀ j k, Outcome.Mirrored (fun _ _ => True) Eq (q.meaning rules s j)
      (q.meaning rules s k) := fun j k => meaning_mirrors_regardless q s s ⟨rfl, hs⟩ j k True.intro
  have hforth : Outcome.Mirrored (fun _ _ => True) State.SameSuccess (p.meaning rules s j)
      (q.meaning rules s k) := by
    refine hpaired.mirrored.comp (hself j k) ?_ fun _ _ _ _ _ => True.intro
    rintro t u _ htu rfl
    exact htu
  have hback : Outcome.Mirrored (fun _ _ => True) (fun u t => State.SameSuccess t u)
      (q.meaning rules s k) (p.meaning rules s j) := by
    refine (hself k j).comp (hpaired.symm (fun _ _ h => h) fun _ _ h => h).mirrored ?_
      fun _ _ _ _ _ => True.intro
    rintro u _ t rfl htu
    exact htu
  exact hforth.paired hback

theorem successEqual_self (g : Grammar) : SuccessEqual rules g g := by
  refine fun s _ j => ⟨0, fun fuel _ => ?_⟩
  cases g.parser rules fuel s j with
  | returned t k => exact ⟨⟨rfl, fun _ => rfl⟩, True.intro⟩
  | raised fault k => exact ⟨rfl, True.intro⟩
  | exhausted => exact True.intro

theorem endAlike_of_meaning {R : State → State → Prop}
    (h : ∀ s : State, s.isError = false → ∀ j k,
      (p.meaning rules s j).EndAlike R (q.meaning rules s k)) : EndAlike rules R p q := by
  intro s hs j
  exact exists_fuel_of_meaning (h s hs j j)

/-- **A failed attempt leaves nothing behind.**  Let two lists of alternatives, two repeated
    parsers, two separators and two values each succeed on the same states, with the same
    states, and fail as they please.  Then the choices end in one and the same state from
    every state that has not failed, and so do `many`, `many1`, `sepBy` and `sepBy1`, also
    where they fail.  A choice among parsers that always return does return. -/
theorem failed_attempts_leave_nothing_behind (hps : List.Forall₂ (SuccessEqual rules) ps qs)
    (hp : SuccessEqual rules p q) (hsep : SuccessEqual rules sep sep')
    (hvalue : SuccessEqual rules value value') :
    EndAlike rules Eq (choice ps) (choice qs) ∧
      ((∀ g ∈ ps, (g.meaning rules).Total) → ((choice ps).meaning rules).Total) ∧
      EndAlike rules Eq (many p) (many q) ∧ EndAlike rules Eq (many1 p) (many1 q) ∧
      EndAlike rules Eq (sepBy sep value) (sepBy sep' value') ∧
      EndAlike rules Eq (sepBy1 sep value) (sepBy1 sep' value') := by
  have hmeanings : List.Forall₂ Parser.SuccessEqual (ps.map (meaning rules))
      (qs.map (meaning rules)) := by
    rw [List.forall₂_map_left_iff, List.forall₂_map_right_iff]
    exact hps.imp fun _ _ => SuccessEqual.meaning
  refine ⟨endAlike_of_meaning fun s hs j k => ?_, fun htotal => ?_,
    endAlike_of_meaning fun s hs j k => ?_, endAlike_of_meaning fun s hs j k => ?_,
    endAlike_of_meaning fun s hs j k => ?_, endAlike_of_meaning fun s hs j k => ?_⟩
  · simp only [meaning_choice]
    exact Parser.choice_endAlike hmeanings hs j k
  · rw [meaning_choice]
    exact Parser.choice_total (List.forall_mem_map.mpr htotal)
  · simp only [meaning_many]
    exact Parser.repeated_endAlike hp.meaning hs j k
  · simp only [meaning_many1]
    exact Parser.repeated1_endAlike hp.meaning hs j k
  · simp only [meaning_sepBy]
    exact Parser.separated_endAlike hsep.meaning hvalue.meaning hs j k
  · simp only [meaning_sepBy1]
    exact Parser.separated1_endAlike hsep.meaning hvalue.meaning hs j k

/-! ### A parser that fails somewhere else -/

/-- Reads an `a`; where there is none, it fails and moves two characters on. -/
def strayStep (s : State) : State :=
  if s.input.hasAt "a".toList s.cursor then s.advance (s.cursor + 1) (.str "a")
  else (Probe.failMove 2).step s

def stray : Grammar := .custom "stray" fun s => pure (strayStep s)

theorem literal_successEqual_stray : SuccessEqual [] (literal "a") stray := by
  refine endAlike_of_meaning fun s hs j k => ?_
  rw [meaning_literal, stray, meaning_custom]
  suffices h : ∃ t, Parser.literal "a" s = pure t ∧ t.SameSuccess (strayStep s) by
    obtain ⟨t, ht, hsame⟩ := h
    rw [ht]
    exact ⟨hsame, True.intro⟩
  rw [strayStep]
  by_cases hhas : s.input.hasAt "a".toList s.cursor = true
  · obtain ⟨rest, hahead⟩ := (Text.hasAt_iff_isPrefixOf _ _ _).mp hhas
    rw [if_pos hhas]
    exact ⟨_, Parser.literal_here (by decide) hs hahead.symm, rfl, fun _ => rfl⟩
  · have hmissing : ¬"a".toList <+: s.ahead :=
      fun h => hhas ((Text.hasAt_iff_isPrefixOf _ _ _).mpr h)
    obtain ⟨message, hliteral⟩ := Parser.literal_missing hs hmissing
    have hfailed : ((Probe.failMove 2).step s).isError = true := by
      rw [Probe.step, hs, if_neg Bool.false_ne_true]
      rfl
    rw [if_neg hhas]
    exact ⟨_, hliteral, hfailed.symm, nofun⟩

/-- Where the literal fails, the other parser fails two characters behind it; neither place
    is where the choice and the loops end. -/
theorem stray_attempts_leave_nothing_behind :
    List.Forall₂ (SuccessEqual []) [literal "a", digits] [stray, digits] ∧
      SuccessEqual [] (literal "a") stray ∧ SuccessEqual [] (literal ",") (literal ",") ∧
      EndAlike [] Eq (choice [literal "a", digits]) (choice [stray, digits]) ∧
      EndAlike [] Eq (many (literal "a")) (many stray) ∧
      EndAlike [] Eq (many1 (literal "a")) (many1 stray) ∧
      EndAlike [] Eq (sepBy (literal ",") (literal "a")) (sepBy (literal ",") stray) ∧
      EndAlike [] Eq (sepBy1 (literal ",") (literal "a")) (sepBy1 (literal ",") stray) ∧
      (∃ e, stray.parser [] 1 (State.initial (Text.ofString "12")) {}
        = .returned { input := Text.ofString "12", cursor := 2, isError := true, error := some e }
            {}) ∧
      (choice [stray, digits]).parser [] 2 (State.initial (Text.ofString "12")) {}
        = .returned { input := Text.ofString "12", cursor := 2, result := .str "12" } {} ∧
      (sepBy (literal ",") stray).parser [] 4 (State.initial (Text.ofString "a,a,12")) {}
        = .returned { input := Text.ofString "a,a,12", cursor := 4,
                      result := .list [.str "a", .str "a"] } {} := by
  have hself : ∀ g, SuccessEqual [] g g := successEqual_self
  have hlists : List.Forall₂ (SuccessEqual []) [literal "a", digits] [stray, digits] :=
    .cons literal_successEqual_stray (.cons (hself digits) .nil)
  obtain ⟨hchoice, -, hmany, hmany1, hsepBy, hsepBy1⟩ :=
    failed_attempts_leave_nothing_behind hlists literal_successEqual_stray (hself (literal ","))
      literal_successEqual_stray
  exact ⟨hlists, literal_successEqual_stray, hself _, hchoice, hmany, hmany1, hsepBy, hsepBy1,
    ⟨_, rfl⟩, rfl, rfl⟩

end Grammar

end Descent
