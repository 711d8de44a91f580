/-
  Descent/Proofs/Separation.lean
  ==============================
  **A list with separators, spelled out in the other combinators.**

  `Grammar.spelledOut` is a value, then `many` pairs of a separator and a value, then one
  more separator if there is one.  The loop of `sepBy` is out of step with it: its round
  is a value and a separator, while the round of the long form is a separator and a value.
  So where a separator is followed by no value, the loop stands behind the separator, and
  the long form goes back in front of it and reads it once more.

  Both are compared with one and the same run behind the first value (`follow`), which
  keeps the last value's state and the state that the loop ends with.  The rounds of the
  long form are its rounds (`collect_eq_follow`); the rounds of the loop are half a round
  ahead, so with the same fuel they answer a little more and with one unit less a little
  less (`limit_collectBehind`).  What is left is the separator that the long form reads
  again, from a state with another result.  It does the same again if nothing in it reads
  the result (`closing_returned`), but it may record its calls twice, so the journals are
  not compared.
-/
import Descent.Proofs.Repetition
import Descent.Proofs.StaleResult

namespace Descent

/-- From `s` on, `u` has succeeded and `t` is the same state, or `u` has failed and `t` has
    found nothing, and failed where it started. -/
def State.SameOrNothing (s t u : State) : Prop :=
  (u.isError = false ∧ t = u) ∨
    (u.isError = true ∧ ∃ message, t = s.fail .repetitionEmpty message)

namespace Grammar

/-- One or more values with a separator between them, and maybe one behind them, without
    the loop that is made for it. -/
def spelledOut (sep value : Grammar) : Grammar :=
  .chain value pure fun first =>
    .chain (.many (.map (.sequence [sep, value]) (pick 1))) pure fun rest =>
      .map (.choice [sep, .succeed .null]) fun _ => prepend first rest

end Grammar

namespace Parser

open Run (Ensures)

variable {sep value : Parser} {s t : State} {results : List Value}

/-! ### Behind a value -/

/-- The rest of a list behind a value: the values that follow, the state behind the last
    value, and the state where the list ends.  The two states are the same unless the list
    ends in a separator. -/
structure Trail where
  results : List Value
  last : State
  stop : State

/-- What a loop over pairs of a separator and a value would have gathered. -/
def Trail.pairs (trail : Trail) : Harvest := { results := trail.results, state := trail.last }

/-- What the loop over values gathers, the first value included. -/
def Trail.values (trail : Trail) (first : Value) : Harvest :=
  { results := first :: trail.results, state := trail.stop }

/-- One round behind a value: a separator, a value, and what `next` makes of it. -/
def behindValue (sep value : Parser) (next : List Value → State → Run Trail)
    (results : List Value) (t : State) : Run Trail := do
  let u ← sep t
  if u.isError then pure { results := results.reverse, last := t, stop := t }
  else do
    let found ← value u
    if found.isError then pure { results := results.reverse, last := t, stop := u }
    else next (found.result :: results) found

/-- Separators and values behind a value, for `fuel` rounds at most. -/
def follow (sep value : Parser) : Nat → List Value → State → Run Trail
  | 0 => fun _ _ => Run.exhausted
  | fuel + 1 => behindValue sep value (follow sep value fuel)

/-- `follow` with as many rounds as it takes. -/
noncomputable def trail (sep value : Parser) (t : State) : Run Trail :=
  Run.limit fun fuel => follow sep value fuel [] t

theorem behindValue_bind {α : Type} (next : List Value → State → Run Trail) (f : Trail → Run α) :
    behindValue sep value next results t >>= f = (do
      let u ← sep t
      if u.isError then f { results := results.reverse, last := t, stop := t }
      else do
        let found ← value u
        if found.isError then f { results := results.reverse, last := t, stop := u }
        else next (found.result :: results) found >>= f) := by
  simp only [behindValue, bind_assoc, Run.ite_pure_bind]

theorem follow_rising (sep value : Parser) (results : List Value) (t : State) :
    Run.Rising fun fuel => follow sep value fuel results t := by
  intro fuel
  induction fuel generalizing results t with
  | zero => exact .of_exhausted _
  | succ fuel ih =>
    refine .bind (.refl _) fun u => .ite (.refl _) ?_
    exact .bind (.refl _) fun found => .ite (.refl _) (ih (found.result :: results) found)

/-- What is known of where a list ends: its separator has been tried there, and the list
    ends behind the separator if there was one. -/
def Trail.Stops (sep : Parser) (trail : Trail) : Prop :=
  trail.last.isError = false ∧ ∃ k u l, sep trail.last k = .returned u l ∧
    trail.stop = if u.isError then trail.last else u

theorem Trail.Stops.stop_ok {trail : Trail} (h : trail.Stops sep) : trail.stop.isError = false := by
  obtain ⟨hok, k, u, l, -, hstop⟩ := h
  rw [hstop]
  cases hu : u.isError with
  | true => rwa [if_pos rfl]
  | false => rwa [if_neg Bool.false_ne_true]

theorem ensures_follow_stops (fuel : Nat) (results : List Value) (ht : t.isError = false) :
    (follow sep value fuel results t).Ensures (Trail.Stops sep) := by
  induction fuel generalizing results t with
  | zero => exact .exhausted
  | succ fuel ih =>
    rw [follow, behindValue]
    refine .bind (.returned (sep t)) fun u ⟨k, l, hu⟩ => .ite (fun hfailed => ?_) fun hgoes => ?_
    · exact .pure ⟨ht, k, u, l, hu, (if_pos hfailed).symm⟩
    refine .bind (.trivial _) fun found _ => .ite (fun _ => ?_) fun hgoes' => ?_
    · exact .pure ⟨ht, k, u, l, hu, (if_neg hgoes).symm⟩
    · exact ih (found.result :: results) (by simpa using hgoes')

theorem ensures_trail_stops (ht : t.isError = false) :
    (trail sep value t).Ensures (Trail.Stops sep) :=
  .limit fun fuel => ensures_follow_stops fuel [] ht

/-! ### Pairs of a separator and a value -/

/-- A separator and a value, of which the value is kept. -/
def separatorThen (sep value : Parser) : Parser :=
  (sequence [sep, value]).map fun v => (Grammar.pick 1 v).run

theorem separatorThen_eq (hs : s.isError = false) :
    separatorThen sep value s = (do
      let u ← sep s
      if u.isError then pure u else value u) := by
  rw [separatorThen, map, sequence_eq hs, sequenceFrom, bind_assoc]
  refine bind_congr fun u => ?_
  by_cases hu : u.isError = true
  · simp [hu]
  rw [if_neg hu, if_neg hu, sequenceFrom, bind_assoc, ← bind_pure (value u), bind_assoc]
  refine bind_congr fun w => ?_
  by_cases hw : w.isError = true
  · simp [hw]
  · have hkept : ¬(w.withResult (.list [u.result, w.result])).isError = true := hw
    rw [pure_bind, if_neg hw, sequenceFrom, pure_bind]
    exact if_neg hkept

/-- **The rounds of the long form.**  A pair moves the cursor, as its separator does, so
    the loop over pairs ends where a pair fails, in front of its separator. -/
theorem collect_eq_follow (hsep : sep.Forward) (hvalue : value.Onward) (fuel : Nat)
    (results : List Value) (ht : t.isError = false) :
    collect (separatorThen sep value) fuel results t = (do
      let trail ← follow sep value fuel results t
      pure trail.pairs) := by
  induction fuel generalizing results t with
  | zero => rfl
  | succ fuel ih =>
    rw [collect, separatorThen_eq ht, follow, behindValue_bind, bind_assoc]
    refine (hsep t ht).bind_congr fun u hu => ?_
    cases hok : u.isError with
    | true => simp [hok, Trail.pairs]
    | false =>
      rw [if_neg Bool.false_ne_true, if_neg Bool.false_ne_true]
      refine (hvalue u hok).bind_ok_congr fun found hfound hok' => ?_
      have hmoved : found.cursor ≠ t.cursor :=
        Nat.ne_of_gt (Nat.lt_of_lt_of_le (hu hok).1 (hfound hok').1)
      rw [if_neg hmoved, ih (found.result :: results) hok']

theorem gather_eq_trail (hsep : sep.Forward) (hvalue : value.Onward) (ht : t.isError = false) :
    gather (separatorThen sep value) [] t = (do
      let trail ← trail sep value t
      pure trail.pairs) := by
  rw [gather, trail, ← Run.limit_bind_left (follow_rising sep value [] t)]
  simp only [collect_eq_follow hsep hvalue _ [] ht]

/-! ### The loop over values -/

/-- The loop over values, from behind a value on. -/
def collectBehind (sep value : Parser) (fuel : Nat) (results : List Value) (t : State) :
    Run Harvest := do
  let u ← sep t
  if u.isError then pure { results := results.reverse, state := t }
  else collectSeparated sep value fuel results u

theorem collectBehind_rising (sep value : Parser) (results : List Value) (t : State) :
    Run.Rising fun fuel => collectBehind sep value fuel results t :=
  (Run.Rising.const (sep t)).bind fun u =>
    .ite (.const _) (collectSeparated_rising sep value results u)

/-- The loop never ends for want of progress: its separator has moved the cursor. -/
theorem collectSeparated_succ (hsep : sep.Forward) (hvalue : value.Onward) (fuel : Nat)
    (results : List Value) (hs : s.isError = false) :
    collectSeparated sep value (fuel + 1) results s = (do
      let t ← value s
      if t.isError then pure { results := results.reverse, state := s }
      else collectBehind sep value fuel (t.result :: results) t) := by
  rw [collectSeparated]
  refine (hvalue s hs).bind_ok_congr fun t ht hok => ?_
  rw [collectBehind]
  refine (hsep t hok).bind_congr fun u hu => ?_
  cases hu' : u.isError with
  | true => rw [Bool.true_or]
  | false =>
    have hmoved : u.cursor ≠ s.cursor :=
      Nat.ne_of_gt (Nat.lt_of_le_of_lt (ht hok).1 (hu hu').1)
    simp [hmoved]

theorem collectBehind_succ (hsep : sep.Forward) (hvalue : value.Onward) (fuel : Nat)
    (results : List Value) (t : State) :
    collectBehind sep value (fuel + 1) results t = (do
      let u ← sep t
      if u.isError then pure { results := results.reverse, state := t }
      else do
        let found ← value u
        if found.isError then pure { results := results.reverse, state := u }
        else collectBehind sep value fuel (found.result :: results) found) := by
  rw [collectBehind]
  refine (Ensures.trivial _).bind_ok_congr fun u _ hok => ?_
  exact collectSeparated_succ hsep hvalue fuel results hok

/-- With some fuel the loop answers what the run behind the value answers, where the first
    value is at the far end of the results so far. -/
theorem follow_extends_collectBehind (hsep : sep.Forward) (hvalue : value.Onward) (first : Value)
    (fuel : Nat) (results : List Value) (t : State) :
    Run.Extends (follow sep value fuel results t >>= fun trail => pure (trail.values first))
      (collectBehind sep value fuel (results ++ [first]) t) := by
  induction fuel generalizing results t with
  | zero => exact .of_exhausted _
  | succ fuel ih =>
    rw [follow, behindValue_bind, collectBehind_succ hsep hvalue, List.reverse_append]
    refine .bind (.refl _) fun u => .ite (.refl _) ?_
    exact .bind (.refl _) fun found => .ite (.refl _) (ih (found.result :: results) found)

/-- The loop is half a round ahead, so the run behind the value needs one unit more. -/
theorem collectBehind_extends_follow (hsep : sep.Forward) (hvalue : value.Onward) (first : Value)
    (fuel : Nat) (results : List Value) (t : State) :
    Run.Extends (collectBehind sep value fuel (results ++ [first]) t)
      (follow sep value (fuel + 1) results t >>= fun trail => pure (trail.values first)) := by
  induction fuel generalizing results t with
  | zero =>
    rw [follow, behindValue_bind, collectBehind, List.reverse_append]
    exact .bind (.refl _) fun u => .ite (.refl _) (.of_exhausted _)
  | succ fuel ih =>
    rw [follow, behindValue_bind, collectBehind_succ hsep hvalue, List.reverse_append]
    refine .bind (.refl _) fun u => .ite (.refl _) ?_
    exact .bind (.refl _) fun found => .ite (.refl _) (ih (found.result :: results) found)

/-- **The rounds of the loop.**  Behind a first value the loop gathers, half a round ahead,
    what the long form does. -/
theorem limit_collectBehind (hsep : sep.Forward) (hvalue : value.Onward) (first : Value)
    (t : State) :
    Run.limit (fun fuel => collectBehind sep value fuel [first] t) = (do
      let trail ← trail sep value t
      pure (trail.values first)) := by
  have hfollow := follow_rising sep value [] t
  have hvalues := hfollow.bind fun trail => .const (pure (trail.values first))
  rw [trail, ← Run.limit_bind_left hfollow]
  apply Run.Extends.antisymm
  · refine Run.limit_extends fun fuel => ?_
    have hahead := collectBehind_extends_follow hsep hvalue first fuel [] t
    exact hahead.trans (hvalues.extends_limit (fuel + 1))
  · refine Run.limit_extends fun fuel => ?_
    have hbehind := follow_extends_collectBehind hsep hvalue first fuel [] t
    exact hbehind.trans ((collectBehind_rising sep value [first] t).extends_limit fuel)

theorem gatherSeparated_eq_trail (hsep : sep.Forward) (hvalue : value.Onward)
    (hs : s.isError = false) :
    gatherSeparated sep value [] s = (do
      let t ← value s
      if t.isError then pure { results := [], state := s }
      else do
        let trail ← trail sep value t
        pure (trail.values t.result)) := by
  rw [gatherSeparated, ← (collectSeparated_rising sep value [] s).limit_tail]
  simp only [collectSeparated_succ hsep hvalue _ [] hs]
  rw [Run.limit_bind_right (value s) fun t =>
    .ite (.const _) (collectBehind_rising sep value [t.result] t)]
  refine bind_congr fun t => ?_
  rw [Run.limit_ite, Run.limit_const]
  exact ite_congr rfl (fun _ => rfl) fun _ => limit_collectBehind hsep hvalue t.result t

/-! ### The separator at the end -/

/-- What the parser does on a state it does as well on one with another result, whatever
    the journals hold. -/
def Repeatable (p : Parser) : Prop :=
  ∀ t : State, t.isError = false → ∀ k u l, p t k = .returned u l →
    ∀ v m, ∃ u' n, p (t.withResult v) m = .returned u' n ∧ u.SameUnlessFailed u'

/-- The end of the long form: a separator if there is one, and the list of the values. -/
def closing (sep : Parser) (first rest : Value) : Parser :=
  (choice [sep, succeed .null]).map fun _ => (Grammar.prepend first rest).run

/-- The long form, from behind its first value on. -/
noncomputable def spelledBehind (sep value : Parser) (t : State) : Run State := do
  let trail ← trail sep value t
  closing sep t.result (.list trail.results) (trail.last.withResult (.list trail.results))

/-- The loop and what is made of what it has gathered, from behind its first value on. -/
noncomputable def loopBehind (sep value : Parser) (t : State) : Run State := do
  let trail ← trail sep value t
  pure (trail.stop.withResult (.list (t.result :: trail.results)))

/-- The separator that the loop has tried last is tried again, and does the same. -/
theorem closing_returned (hsep : sep.Repeatable) {trail : Trail} (h : trail.Stops sep)
    (first v : Value) (j : Journal) :
    ∃ k, closing sep first (.list trail.results) (trail.last.withResult v) j
      = .returned (trail.stop.withResult (.list (first :: trail.results))) k := by
  obtain ⟨hlast, k, u, l, hu, hstop⟩ := h
  obtain ⟨u', n, hu', hsame⟩ := hsep trail.last hlast k u l hu v j
  have hvok : (trail.last.withResult v).isError = false := hlast
  refine ⟨n, ?_⟩
  rw [closing, hstop]
  cases hfailed : u.isError with
  | true =>
    have hchoice : choice [sep, succeed .null] (trail.last.withResult v) j
        = .returned ((trail.last.withResult v).withResult .null) n := by
      rw [choice_succeed_eq hvok, Run.bind_returned hu', if_pos (hsame.1.isError ▸ hfailed)]
      rfl
    have hnull : ((trail.last.withResult v).withResult .null).isError = false := hlast
    rw [map, Run.bind_returned hchoice, hnull, if_neg Bool.false_ne_true, if_pos rfl]
    rfl
  | false =>
    obtain rfl := hsame.2 hfailed
    have hchoice : choice [sep, succeed .null] (trail.last.withResult v) j = .returned u n := by
      rw [choice_succeed_eq hvok, Run.bind_returned hu', hfailed, if_neg Bool.false_ne_true]
      rfl
    rw [map, Run.bind_returned hchoice, hfailed, if_neg Bool.false_ne_true,
      if_neg Bool.false_ne_true]
    rfl

/-- **Behind a first value both end in the same state, with the same values**; `f` is what
    is still done with the state of the long form. -/
theorem paired_behind (hsep : sep.Repeatable) (ht : t.isError = false) {f : State → Run State}
    {R : State → State → Prop} (hf : ∀ u, u.isError = false → f u = pure u)
    (hR : ∀ u, u.isError = false → R u u) (j : Journal) :
    (loopBehind sep value t j).Paired (fun _ _ => True) R
      ((spelledBehind sep value t >>= f) j) := by
  rw [loopBehind, spelledBehind, bind_assoc]
  refine (ensures_trail_stops ht).paired (fun trail htrail k => ?_) j
  obtain ⟨l, hl⟩ := closing_returned hsep htrail t.result (.list trail.results) k
  have hok : (trail.stop.withResult (.list (t.result :: trail.results))).isError = false :=
    htrail.stop_ok
  rw [Run.bind_returned hl, hf _ hok]
  exact ⟨hR _ hok, True.intro⟩

end Parser

namespace Grammar

variable {rules : Rules} {sep value : Grammar} {s t : State}

/-- A grammar in which nothing reads the result does the same with another one. -/
theorem meaning_repeatable (h : Throughout rules Oblivious sep) :
    (sep.meaning rules).Repeatable := by
  intro t ht k u l hu v m
  have hstale := meaning_mirrors_of_throughout (fun _ => Oblivious.mirroredAt) h
  have hany : Coupling.identity.regardless.Mirrors (sep.meaning rules) (sep.meaning rules) :=
    meaning_mirrors_regardless sep
  have hresult : t.SameButResult (t.withResult v) := ⟨rfl, rfl, rfl, rfl⟩
  obtain ⟨u', l', hu', hsame, -⟩ :=
    (hstale t (t.withResult v) ⟨hresult, ht⟩).returned (k := k) rfl hu
  obtain ⟨_, n, hu'', rfl, -⟩ :=
    (hany (t.withResult v) (t.withResult v) ⟨rfl, ht⟩).returned (k := m) True.intro hu'
  exact ⟨u', n, hu'', hsame⟩

/-! ### Behind the first value, both ways -/

theorem meaning_spelledOut_eq (hsep : (sep.meaning rules).Forward)
    (hvalue : (value.meaning rules).Onward) (s : State) :
    (spelledOut sep value).meaning rules s = (do
      let t ← value.meaning rules s
      if t.isError then pure t
      else Parser.spelledBehind (sep.meaning rules) (value.meaning rules) t) := by
  have hlong : (spelledOut sep value).meaning rules
      = (value.meaning rules).chain fun first => pure
        ((Parser.repeated (Parser.separatorThen (sep.meaning rules) (value.meaning rules))).chain
          fun rest => pure (Parser.closing (sep.meaning rules) first rest)) := by
    simp only [spelledOut, meaning_chain, meaning_many, meaning_map, meaning_sequence,
      meaning_choice, meaning_succeed, List.map_cons, List.map_nil]
    rfl
  rw [hlong, Parser.chain]
  refine (Run.Ensures.trivial _).bind_ok_congr fun t _ hok => ?_
  rw [pure_bind, Parser.chain, Parser.repeated, hok, if_neg Bool.false_ne_true,
    Parser.gather_eq_trail hsep hvalue hok, bind_assoc, bind_assoc]
  refine (Parser.ensures_trail_stops hok).bind_congr fun trail htrail => ?_
  have hlast : ¬(trail.last.withResult (.list trail.results)).isError = true := by
    simpa [State.withResult] using htrail.1
  rw [pure_bind, pure_bind]
  exact if_neg hlast

theorem meaning_sepBy_eq (hsep : (sep.meaning rules).Forward)
    (hvalue : (value.meaning rules).Onward) (hs : s.isError = false) :
    (sepBy sep value).meaning rules s = (do
      let t ← value.meaning rules s
      if t.isError then pure (s.withResult (.list []))
      else Parser.loopBehind (sep.meaning rules) (value.meaning rules) t) := by
  rw [meaning_sepBy, Parser.separated, hs, if_neg Bool.false_ne_true,
    Parser.gatherSeparated_eq_trail hsep hvalue hs, bind_assoc]
  simp only [Run.ite_pure_bind, bind_assoc, pure_bind]
  rfl

theorem meaning_sepBy1_eq (hsep : (sep.meaning rules).Forward)
    (hvalue : (value.meaning rules).Onward) (hs : s.isError = false) :
    (sepBy1 sep value).meaning rules s = (do
      let t ← value.meaning rules s
      if t.isError then pure (s.fail .repetitionEmpty
        ("sep_by1: Unable to capture any results at index " ++ toString s.cursor))
      else Parser.loopBehind (sep.meaning rules) (value.meaning rules) t) := by
  rw [meaning_sepBy1, Parser.separated1, hs, if_neg Bool.false_ne_true,
    Parser.gatherSeparated_eq_trail hsep hvalue hs, bind_assoc]
  simp only [Run.ite_pure_bind, bind_assoc, pure_bind]
  rfl

theorem paired_sepBy1_spelledOut (hsep : Throughout rules Oblivious sep)
    (hforward : (sep.meaning rules).Forward) (honward : (value.meaning rules).Onward)
    (hs : s.isError = false) (j : Journal) :
    ((sepBy1 sep value).meaning rules s j).Paired (fun _ _ => True) s.SameOrNothing
      ((spelledOut sep value).meaning rules s j) := by
  rw [meaning_sepBy1_eq hforward honward hs, meaning_spelledOut_eq hforward honward]
  refine (Run.Ensures.trivial _).paired (fun t _ k => ?_) j
  cases ht : t.isError with
  | true => exact ⟨.inr ⟨ht, _, rfl⟩, True.intro⟩
  | false =>
    have hsame : ∀ u, u.isError = false → s.SameOrNothing u u := fun u hu => .inl ⟨hu, rfl⟩
    rw [if_neg Bool.false_ne_true, if_neg Bool.false_ne_true,
      ← bind_pure (Parser.spelledBehind _ _ t)]
    exact Parser.paired_behind (meaning_repeatable hsep) ht (fun u _ => rfl) hsame k

theorem paired_sepBy_spelledOut (hsep : Throughout rules Oblivious sep)
    (hforward : (sep.meaning rules).Forward) (honward : (value.meaning rules).Onward)
    (hs : s.isError = false) (j : Journal) :
    ((sepBy sep value).meaning rules s j).Paired (fun _ _ => True) Eq
      ((choice [spelledOut sep value, succeed (.list [])]).meaning rules s j) := by
  rw [meaning_choice, List.map_cons, List.map_cons, List.map_nil, meaning_succeed,
    Parser.choice_succeed_eq hs, meaning_sepBy_eq hforward honward hs,
    meaning_spelledOut_eq hforward honward, bind_assoc]
  refine (Run.Ensures.trivial _).paired (fun t _ k => ?_) j
  cases ht : t.isError with
  | true =>
    rw [if_pos rfl, if_pos rfl, pure_bind, if_pos ht]
    exact ⟨rfl, True.intro⟩
  | false =>
    rw [if_neg Bool.false_ne_true, if_neg Bool.false_ne_true]
    refine Parser.paired_behind (meaning_repeatable hsep) ht (fun u hu => ?_) (fun u _ => rfl) k
    rw [hu, if_neg Bool.false_ne_true]

/-- **A list with separators is what it spells out to**, a trailing separator included.
    Nothing in the separator reads the result, its every success moves the cursor forward,
    and no success of the value moves it back.  From a state that has not failed:
    `sepBy1` ends as the long form does, with the same state if that succeeds; it fails
    where it started if that fails.  `sepBy` ends as the long form or nothing.  And if
    separators and values always return, so do `sepBy`, which has not failed, and
    `sepBy1`. -/
theorem sepBy_is_spelledOut (hsep : Throughout rules Oblivious sep)
    (hforward : (sep.meaning rules).Forward) (honward : (value.meaning rules).Onward)
    (hs : s.isError = false) (j : Journal) :
    (∃ n, ∀ fuel, n ≤ fuel → ((sepBy1 sep value).parser rules fuel s j).Paired (fun _ _ => True)
      s.SameOrNothing ((spelledOut sep value).parser rules fuel s j)) ∧
    (∃ n, ∀ fuel, n ≤ fuel → ((sepBy sep value).parser rules fuel s j).Paired (fun _ _ => True) Eq
      ((choice [spelledOut sep value, succeed (.list [])]).parser rules fuel s j)) ∧
    ((sep.meaning rules).Returns → (value.meaning rules).Returns →
      (∃ t k, Run.SettlesOn (fun fuel => (sepBy sep value).parser rules fuel s) j
        (.returned t k) ∧ t.isError = false) ∧
      ∃ t k, Run.SettlesOn (fun fuel => (sepBy1 sep value).parser rules fuel s) j
        (.returned t k)) := by
  refine ⟨exists_fuel_of_meaning (paired_sepBy1_spelledOut hsep hforward honward hs j),
    exists_fuel_of_meaning (paired_sepBy_spelledOut hsep hforward honward hs j), ?_⟩
  intro hsepReturns hvalueReturns
  constructor
  · obtain ⟨t, k, h, hok⟩ :=
      Parser.separated_returns hforward.onward honward hsepReturns hvalueReturns hs j
    refine ⟨t, k, (settlesOn_iff rules).mpr ?_, hok⟩
    rw [meaning_sepBy]
    exact h
  · obtain ⟨t, k, h⟩ :=
      Parser.separated1_returns hforward.onward honward hsepReturns hvalueReturns hs j
    refine ⟨t, k, (settlesOn_iff rules).mpr ?_⟩
    rw [meaning_sepBy1]
    exact h

/-! ### A list that ends in a separator -/

theorem literal_oblivious (text : String) : Throughout [] Oblivious (literal text) :=
  .of_everywhere (fun _ _ h => by cases h) (everywhere_literal.mpr True.intro)

/-- Two values and a separator behind them, which both ways consume. -/
theorem open_pairs_are_spelledOut :
    Throughout [] Oblivious (literal ",") ∧ ((literal ",").meaning []).Forward ∧
      ((literal "ab").meaning []).Onward ∧
      (∃ n, ∀ fuel, n ≤ fuel → ((sepBy1 (.literal ",") (.literal "ab")).parser [] fuel
          (State.initial (Text.ofString "ab,ab,)")) {}).Paired (fun _ _ => True)
        (State.initial (Text.ofString "ab,ab,)")).SameOrNothing
        ((spelledOut (.literal ",") (.literal "ab")).parser [] fuel
          (State.initial (Text.ofString "ab,ab,)")) {})) ∧
      (∃ n, ∀ fuel, n ≤ fuel → ((sepBy (.literal ",") (.literal "ab")).parser [] fuel
          (State.initial (Text.ofString "ab,ab,)")) {}).Paired (fun _ _ => True) Eq
        ((choice [spelledOut (.literal ",") (.literal "ab"), succeed (.list [])]).parser [] fuel
          (State.initial (Text.ofString "ab,ab,)")) {})) ∧
      (∃ t k, Run.SettlesOn (fun fuel => (sepBy (.literal ",") (.literal "ab")).parser [] fuel
          (State.initial (Text.ofString "ab,ab,)"))) {} (.returned t k) ∧ t.isError = false) ∧
      (sepBy (.literal ",") (.literal "ab")).parser [] 4
          (State.initial (Text.ofString "ab,ab,)")) {}
        = .returned { input := Text.ofString "ab,ab,)", cursor := 6,
                      result := .list [.str "ab", .str "ab"] } {} := by
  have hsep := literal_oblivious ","
  have hforward : ((literal ",").meaning []).Forward := literal_forward (by decide)
  have honward : ((literal "ab").meaning []).Onward := (literal_forward (by decide)).onward
  obtain ⟨hone, hany, hreturns⟩ := sepBy_is_spelledOut hsep hforward honward
    (s := State.initial (Text.ofString "ab,ab,)")) rfl {}
  have hsettles := (hreturns (literal_returns ",") (literal_returns "ab")).1
  exact ⟨hsep, hforward, honward, hone, hany, hsettles, rfl⟩

end Grammar

end Descent
