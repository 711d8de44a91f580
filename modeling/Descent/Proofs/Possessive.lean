/-
  Descent/Proofs/Possessive.lean
  ==============================
  **What a loop has taken it does not give back.**

  A loop ends where what it repeats fails.  So nothing is left for the same parser behind
  it, and no fewer rounds are tried so that there is: a sequence of `many` and one more
  fails always, and `many` behind `many` yields nothing (`Grammar.many_is_possessive`).

  `Taken` says where the loop ends, and that it has been tried there.  This was on the
  last good state itself, while the next parser is applied to that state with the list
  as its result, at a later time.  It fails there too if nothing in it reads the result
  (`Taken.stopped`).
-/
import Descent.Proofs.Separation

namespace Descent

namespace Parser

variable {p : Parser} {s t : State} {items results : List Value} {j k : Journal}

/-! ### Where the loop ends -/

/-- A loop that has started at `s` has ended at `t`, with these items.  It has moved on unless
    there are none, and the parser has been tried where it ended, and has failed. -/
structure Taken (p : Parser) (s t : State) (items : List Value) : Prop where
  ok : t.isError = false
  stays : items = [] → t = s
  moves : items ≠ [] → s.cursor < t.cursor
  tried : ∃ k u l, p t k = .returned u l ∧ u.isError = true

theorem Taken.cons {v : Value} (hmoved : s.cursor < t.cursor) {u : State}
    (h : Taken p t u items) : Taken p s u (v :: items) where
  ok := h.ok
  stays := nofun
  moves := by
    rintro -
    cases hitems : items with
    | nil => rwa [h.stays hitems]
    | cons v' items' => exact Nat.lt_trans hmoved (h.moves (by simp [hitems]))
  tried := h.tried

/-- Each success moves the cursor, so the loop is left by the failure only. -/
theorem ensures_collect_taken (hp : p.Forward) (fuel : Nat) (results : List Value)
    (hs : s.isError = false) :
    (collect p fuel results s).Ensures fun harvest =>
      ∃ items, harvest.results = results.reverse ++ items ∧ Taken p s harvest.state items := by
  induction fuel generalizing results s with
  | zero => exact .exhausted
  | succ fuel ih =>
    rw [collect]
    refine .bind (.returned (p s)) fun t hreturned => ?_
    obtain ⟨k, l, ht⟩ := hreturned
    refine .ite (fun hfailed => ?_) fun hgoes => ?_
    · have htaken : Taken p s s [] :=
        ⟨hs, fun _ => rfl, fun hne => absurd rfl hne, k, t, l, ht, hfailed⟩
      exact .pure ⟨[], (List.append_nil _).symm, htaken⟩
    have hok : t.isError = false := by simpa using hgoes
    have hmoved : s.cursor < t.cursor := (hp s hs k t l ht hok).1
    refine .ite (fun hstays => ?_) fun _ => ?_
    · exact absurd hstays (Nat.ne_of_gt hmoved)
    · refine (ih (t.result :: results) hok).mono ?_
      rintro harvest ⟨items, hresults, htaken⟩
      refine ⟨t.result :: items, ?_, htaken.cons hmoved⟩
      rw [hresults, List.reverse_cons, List.append_assoc]
      rfl

theorem ensures_gather_taken (hp : p.Forward) (hs : s.isError = false) :
    (gather p [] s).Ensures fun harvest => Taken p s harvest.state harvest.results := by
  refine (Run.Ensures.limit fun fuel => ensures_collect_taken hp fuel [] hs).mono ?_
  rintro harvest ⟨items, hresults, htaken⟩
  rw [hresults]
  exact htaken

theorem repeated_taken (hp : p.Forward) (hs : s.isError = false)
    (h : repeated p s j = .returned t k) :
    ∃ last items, Taken p s last items ∧ t = last.withResult (.list items) := by
  rw [repeated, hs, if_neg Bool.false_ne_true] at h
  obtain ⟨harvest, l, hgather, hlist⟩ := Run.returned_of_bind h
  cases hlist
  exact ⟨harvest.state, harvest.results, ensures_gather_taken hp hs j harvest k hgather, rfl⟩

/-! ### Behind the loop -/

namespace Taken

variable {last : State}

/-- The parser fails behind the loop, whatever the loop has left as a result there. -/
theorem stopped (hp : p.Repeatable) (h : Taken p s last items) (v : Value) (j : Journal) :
    ∃ u k, p (last.withResult v) j = .returned u k ∧ u.isError = true := by
  obtain ⟨k, u, l, hu, hfailed⟩ := h.tried
  obtain ⟨u', n, hu', hsame⟩ := hp last h.ok k u l hu v j
  exact ⟨u', n, hu', hsame.1.isError ▸ hfailed⟩

/-- The loop yields nothing behind itself. -/
theorem repeated_again (hp : p.Repeatable) (h : Taken p s last items) (v : Value) (j : Journal) :
    ∃ k, repeated p (last.withResult v) j = .returned (last.withResult (.list [])) k := by
  obtain ⟨u, k, hu, hfailed⟩ := h.stopped hp v j
  have hok : (last.withResult v).isError = false := h.ok
  exact ⟨k, repeated_of_gather hok (gather_failed hu hfailed)⟩

theorem then_fails (hp : p.Repeatable) (h : Taken p s last items) (hs : s.isError = false)
    (hloop : repeated p s j = .returned (last.withResult (.list items)) k) :
    ∃ u l, sequence [repeated p, p] s j = .returned u l ∧ u.isError = true := by
  obtain ⟨u, l, hu, hfailed⟩ := h.stopped hp (.list items) k
  refine ⟨u, l, ?_, hfailed⟩
  rw [sequence_eq hs, sequenceFrom_ok hloop h.ok]
  exact sequenceFrom_failed hu hfailed

theorem then_repeated (hp : p.Repeatable) (h : Taken p s last items) (hs : s.isError = false)
    (hloop : repeated p s j = .returned (last.withResult (.list items)) k) :
    ∃ l, sequence [repeated p, repeated p] s j
      = .returned (last.withResult (.list [.list items, .list []])) l := by
  obtain ⟨l, hagain⟩ := h.repeated_again hp (.list items) k
  refine ⟨l, ?_⟩
  rw [sequence_eq hs, sequenceFrom_ok hloop h.ok, sequenceFrom_ok hagain h.ok]
  rfl

/-- A loop over the loop goes twice round, the second time without moving. -/
theorem repeated_repeated (hp : p.Repeatable) (h : Taken p s last items) (hs : s.isError = false)
    (hloop : repeated p s j = .returned (last.withResult (.list items)) k) (hsome : items ≠ []) :
    ∃ l, repeated (repeated p) s j
      = .returned (last.withResult (.list [.list items, .list []])) l := by
  obtain ⟨l, hagain⟩ := h.repeated_again hp (.list items) k
  have hmoved : (last.withResult (.list items)).cursor ≠ s.cursor := Nat.ne_of_gt (h.moves hsome)
  have hrounds : gather (repeated p) [] s j = .returned
      { results := [.list items, .list []], state := last.withResult (.list []) } l := by
    rw [gather_ok hloop h.ok hmoved, gather_eq_round, round_last hagain h.ok rfl]
    rfl
  exact ⟨l, repeated_of_gather hs hrounds⟩

/-- If there is nothing to take, the loop over the loop goes round once. -/
theorem repeated_nothing (h : Taken p s last []) (hs : s.isError = false)
    (hloop : repeated p s j = .returned (last.withResult (.list [])) k) :
    repeated (repeated p) s j = .returned (s.withResult (.list [.list []])) k := by
  obtain rfl : last = s := h.stays rfl
  have hround : gather (repeated p) [] last j = .returned
      { results := [.list []], state := last.withResult (.list []) } k := by
    rw [gather_eq_round, round_last hloop h.ok rfl]
    rfl
  exact repeated_of_gather hs hround

end Taken

end Parser

namespace Grammar

variable {rules : Rules} {p : Grammar} {s : State}

/-- **Repetition is greedy, and gives nothing back.**  Nothing in the parser reads the
    result, and its every success moves the cursor forward.  Let `many` of it end with some
    items, from a state that has not failed.  Then one more of the parser behind it fails;
    a second `many` behind it succeeds with nothing, where the first ended; and `many` of
    `many` ends there, with the items and with nothing, or with nothing only if there are
    no items.  If the parser always returns, `many` does end. -/
theorem many_is_possessive (hp : Throughout rules Oblivious p)
    (hforward : (p.meaning rules).Forward) (hs : s.isError = false) (j : Journal) :
    ((p.meaning rules).Returns → ∃ t k,
      Run.SettlesOn (fun fuel => (many p).parser rules fuel s) j (.returned t k)) ∧
    ∀ t k, Run.SettlesOn (fun fuel => (many p).parser rules fuel s) j (.returned t k) →
      ∃ items, t.isError = false ∧ t.result = .list items ∧
        (∃ u l, Run.SettlesOn (fun fuel => (sequence [many p, p]).parser rules fuel s) j
          (.returned u l) ∧ u.isError = true) ∧
        (∃ l, Run.SettlesOn (fun fuel => (sequence [many p, many p]).parser rules fuel s) j
          (.returned (t.withResult (.list [.list items, .list []])) l)) ∧
        (items ≠ [] → ∃ l, Run.SettlesOn (fun fuel => (many (many p)).parser rules fuel s) j
          (.returned (t.withResult (.list [.list items, .list []])) l)) ∧
        (items = [] → ∃ l, Run.SettlesOn (fun fuel => (many (many p)).parser rules fuel s) j
          (.returned (s.withResult (.list [.list []])) l)) := by
  simp only [settlesOn_iff, meaning_many, meaning_sequence, List.map_cons, List.map_nil]
  have hagain := meaning_repeatable hp
  constructor
  · intro hreturns
    obtain ⟨t, k, h, -⟩ := Parser.repeated_returns hforward.onward hreturns hs j
    exact ⟨t, k, h⟩
  · intro t k hloop
    obtain ⟨last, items, htaken, rfl⟩ := Parser.repeated_taken hforward hs hloop
    have hsecond := htaken.then_repeated hagain hs hloop
    have hnested := htaken.repeated_repeated hagain hs hloop
    refine ⟨items, htaken.ok, rfl, htaken.then_fails hagain hs hloop, hsecond, hnested, ?_⟩
    rintro rfl
    exact ⟨k, htaken.repeated_nothing hs hloop⟩

/-! ### Two pairs, and no pair -/

/-- The text of two pairs, in front of the first. -/
def twoPairs : State := { input := Text.ofString "xababa", cursor := 1 }

/-- Two pairs are taken and none is left; where there is no pair, no pair is taken. -/
theorem pairs_many_is_possessive :
    Throughout [] Oblivious (literal "ab") ∧ ((literal "ab").meaning []).Forward ∧
      (∃ t k, Run.SettlesOn (fun fuel => (many (.literal "ab")).parser [] fuel twoPairs) {}
        (.returned t k)) ∧
      (∃ u l, Run.SettlesOn
        (fun fuel => (sequence [many (.literal "ab"), .literal "ab"]).parser [] fuel twoPairs) {}
        (.returned u l) ∧ u.isError = true) ∧
      (∃ l, Run.SettlesOn
        (fun fuel => (sequence [many (.literal "ab"), many (.literal "ab")]).parser [] fuel
          twoPairs) {}
        (.returned { twoPairs with
          cursor := 5, result := .list [.list [.str "ab", .str "ab"], .list []] } l)) ∧
      (∃ l, Run.SettlesOn (fun fuel => (many (many (.literal "ab"))).parser [] fuel twoPairs) {}
        (.returned { twoPairs with
          cursor := 5, result := .list [.list [.str "ab", .str "ab"], .list []] } l)) ∧
      ∃ l, Run.SettlesOn (fun fuel => (many (many (.literal "ab"))).parser [] fuel
          (State.initial (Text.ofString "xab"))) {}
        (.returned
          { input := Text.ofString "xab", cursor := 0, result := .list [.list []] } l) := by
  have hoblivious := literal_oblivious "ab"
  have hforward : ((literal "ab").meaning []).Forward := literal_forward (by decide)
  obtain ⟨hreturns, hpossessive⟩ := many_is_possessive hoblivious hforward (s := twoPairs) rfl {}
  obtain ⟨-, hnothing⟩ := many_is_possessive hoblivious hforward
    (s := State.initial (Text.ofString "xab")) rfl {}
  have htwo : Run.SettlesOn (fun fuel => (many (.literal "ab")).parser [] fuel twoPairs) {}
      (.returned { twoPairs with cursor := 5, result := .list [.str "ab", .str "ab"] } {}) :=
    settlesOn_of_returned [] (n := 4) rfl
  have hnone : Run.SettlesOn (fun fuel => (many (.literal "ab")).parser [] fuel
        (State.initial (Text.ofString "xab"))) {}
      (.returned { input := Text.ofString "xab", cursor := 0, result := .list [] } {}) :=
    settlesOn_of_returned [] (n := 4) rfl
  obtain ⟨items, -, hitems, hthen, hsecond, hnested, -⟩ := hpossessive _ _ htwo
  obtain ⟨items', -, hitems', -, -, -, hnested'⟩ := hnothing _ _ hnone
  cases hitems
  cases hitems'
  exact ⟨hoblivious, hforward, hreturns (literal_returns "ab"), hthen, hsecond, hnested nofun,
    hnested' rfl⟩

end Grammar

end Descent
