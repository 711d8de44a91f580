/-
  Descent/Proofs/Sequencing.lean
  ==============================
  **A sequence is its parts, each in a continuation of the one before.**

  `sequence` goes through its parts in a loop that carries the state and the results so
  far.  `chained` has no loop: behind each part stands a continuation that has been given
  its result, and holds all parts that are left.  From a state that has not failed both
  come to the same (`sequence_eq_chained`), for parsers of any kind: also one that reads
  the result of the part before it finds it there.

  So a sequence stops where a chain does, at the first part that fails, with the state
  that this part has failed in (`Grammar.sequence_failed_iff`).  And what stands between
  two delimiters is a chain as well, by the laws of chaining (`Parser.between_eq_chain`).
-/
import Descent.Proofs.Calls
import Descent.Proofs.MonadLaws

namespace Descent

namespace Parser

variable {p q r : Parser} {ps : List Parser} {s : State}

/-- Parsers one after another, each in a continuation of the one before, and the list of
    what they have found at the end.  The results in `found` come first. -/
def chained : List Parser → List Value → Parser
  | [], found => succeed (.list found)
  | p :: ps, found => p.chain fun v => pure (chained ps (found ++ [v]))

/-- The loop has its results in reverse. -/
theorem sequenceFrom_eq_chained (ps : List Parser) (results : List Value)
    (hs : s.isError = false) :
    sequenceFrom ps results s = chained ps results.reverse s := by
  induction ps generalizing results s with
  | nil =>
    rw [sequenceFrom, chained, succeed, hs, if_neg Bool.false_ne_true]
  | cons p ps ih =>
    rw [sequenceFrom, chained, chain]
    refine bind_congr fun t => ?_
    cases ht : t.isError with
    | true => rfl
    | false =>
      rw [if_neg Bool.false_ne_true, if_neg Bool.false_ne_true, pure_bind, ih _ ht,
        List.reverse_cons]

theorem sequence_eq_chained (ps : List Parser) (hs : s.isError = false) :
    sequence ps s = chained ps [] s := by
  rw [sequence_eq hs, sequenceFrom_eq_chained ps [] hs]
  rfl

/-- The second result of three, picked out of a chain. -/
theorem chained_map_pick (p q r : Parser) :
    (chained [p, q, r] []).map (fun v => (Grammar.pick 1 v).run)
      = p.chain fun _ => pure (q.chain fun v => pure (r.map fun _ => pure v)) := by
  have hlast : ∀ first second : Value,
      ((r.chain fun third => pure (succeed (.list [first, second, third]))).map
        fun v => (Grammar.pick 1 v).run) = r.map fun _ => pure second := by
    intro first second
    have hmap : (r.chain fun third => pure (succeed (.list [first, second, third])))
        = r.map fun third => pure (.list [first, second, third]) := by
      rw [map_eq_chain]
      simp only [pure_bind]
    rw [hmap, map_map]
    simp only [pure_bind]
    rfl
  simp only [chained, List.nil_append, List.cons_append, chain_map, pure_bind, hlast]

/-- What stands between two delimiters is found by a chain. -/
theorem between_eq_chain (hs : s.isError = false) :
    (sequence [p, q, r]).map (fun v => (Grammar.pick 1 v).run) s
      = p.chain (fun _ => pure (q.chain fun v => pure (r.map fun _ => pure v))) s := by
  rw [← chained_map_pick, map, map, sequence_eq_chained _ hs]

end Parser

namespace Grammar

variable {rules : Rules} {s t : State} {j l : Journal}

/-- Grammars one after another, each in a continuation of the one before, and the list of
    what they have found at the end.  The results in `found` come first. -/
def chained : List Grammar → List Value → Grammar
  | [], found => .succeed (.list found)
  | part :: parts, found => .chain part pure fun v => chained parts (found ++ [v])

theorem meaning_chained (rules : Rules) (parts : List Grammar) (found : List Value) :
    (chained parts found).meaning rules = Parser.chained (parts.map (meaning rules)) found := by
  induction parts generalizing found with
  | nil => simp only [chained, meaning_succeed, List.map_nil, Parser.chained]
  | cons part parts ih =>
    simp only [chained, meaning_chain, Response.run_pure, pure_bind, ih, List.map_cons,
      Parser.chained]

theorem meaning_sequence_eq_chained (parts : List Grammar) (hs : s.isError = false) :
    (sequence parts).meaning rules s = (chained parts []).meaning rules s := by
  rw [meaning_sequence, meaning_chained, Parser.sequence_eq_chained _ hs]

theorem meaning_between_eq_chain (left right content : Grammar) (hs : s.isError = false) :
    (between left right content).meaning rules s
      = (chain left pure fun _ => chain content pure fun v =>
          map right fun _ => pure v).meaning rules s := by
  simp only [between, meaning_named, meaning_map, meaning_sequence, List.map_cons, List.map_nil,
    meaning_chain, Response.run_pure, pure_bind]
  exact Parser.between_eq_chain hs

/-! ### The first part that fails -/

/-- Parts that do not succeed one after the other have one that fails first. -/
theorem exists_failing_part {parts : List Grammar} {results : List Value}
    (hs : s.isError = false) (ht : t.isError = true)
    (h : Parser.sequenceFrom (parts.map (meaning rules)) results s j = .returned t l) :
    ∃ before part after u k, parts = before ++ part :: after ∧
      Threads rules before s j u k ∧ part.meaning rules u k = .returned t l := by
  induction parts generalizing results s j with
  | nil =>
    cases h
    exact absurd (hs.symm.trans ht) Bool.false_ne_true
  | cons part parts ih =>
    rw [List.map_cons, Parser.sequenceFrom] at h
    obtain ⟨u, k, hpart, hrest⟩ := Run.returned_of_bind h
    cases hu : u.isError with
    | true =>
      rw [hu, if_pos rfl] at hrest
      cases hrest
      exact ⟨[], part, parts, s, j, rfl, .nil s j, hpart⟩
    | false =>
      rw [hu, if_neg Bool.false_ne_true] at hrest
      obtain ⟨before, part', after, v, m, rfl, hbefore, hfails⟩ := ih hu hrest
      exact ⟨part :: before, part', after, v, m, rfl, .cons hpart hu hbefore, hfails⟩

/-- A sequence fails as its first part that fails does, and whatever is behind that part
    has no share in it. -/
theorem sequence_failed_iff (parts : List Grammar) (hs : s.isError = false)
    (ht : t.isError = true) :
    (sequence parts).meaning rules s j = .returned t l ↔
      ∃ before part after u k, parts = before ++ part :: after ∧
        Threads rules before s j u k ∧ part.meaning rules u k = .returned t l := by
  rw [meaning_sequence, Parser.sequence_eq hs]
  constructor
  · exact exists_failing_part hs ht
  · rintro ⟨before, part, after, u, k, rfl, hbefore, hfails⟩
    obtain ⟨results, hrest⟩ := hbefore.sequenceFrom_eq []
    rw [hrest, List.map_cons, Parser.sequenceFrom_failed hfails ht]

/-- **A sequence is the chain of its parts.**  From a state that has not failed, parsers of
    any kind in a sequence do what they do in continuations of one another, with the same
    effects in the same order, also where only the middle one of three results is kept.  So
    do grammars.  A sequence of them fails exactly where the parts up to some part have
    succeeded one after the other and that part fails; its state and all that has been
    recorded by then are the outcome, so what is left of the parts is not applied.  What
    stands between two delimiters is found by a chain, too. -/
theorem sequence_is_chain (rules : Rules) (hs : s.isError = false) (j : Journal) :
    (∀ ps : List Parser, Parser.sequence ps s j = Parser.chained ps [] s j) ∧
    (∀ p q r : Parser, (Parser.sequence [p, q, r]).map (fun v => (pick 1 v).run) s j
      = p.chain (fun _ => pure (q.chain fun v => pure (r.map fun _ => pure v))) s j) ∧
    (∀ parts, ∃ n, ∀ fuel, n ≤ fuel →
      (sequence parts).parser rules fuel s j = (chained parts []).parser rules fuel s j) ∧
    (∀ parts t l, t.isError = true →
      (Run.SettlesOn (fun fuel => (sequence parts).parser rules fuel s) j (.returned t l) ↔
        ∃ before part after u k, parts = before ++ part :: after ∧
          Threads rules before s j u k ∧
          Run.SettlesOn (fun fuel => part.parser rules fuel u) k (.returned t l))) ∧
    ∀ left right content, ∃ n, ∀ fuel, n ≤ fuel →
      (between left right content).parser rules fuel s j
        = (chain left pure fun _ => chain content pure fun v =>
            map right fun _ => pure v).parser rules fuel s j := by
  refine ⟨fun ps => ?_, fun p q r => ?_, fun parts => ?_, fun parts t l ht => ?_,
    fun left right content => ?_⟩
  · rw [Parser.sequence_eq_chained ps hs]
  · rw [Parser.between_eq_chain hs]
  · apply exists_fuel_of_meaning (T := Eq)
    rw [meaning_sequence_eq_chained parts hs]
  · simp only [settlesOn_iff]
    exact sequence_failed_iff parts hs ht
  · apply exists_fuel_of_meaning (T := Eq)
    rw [meaning_between_eq_chain left right content hs]

/-! ### A bracket that is not closed -/

/-- A number behind a bracket, with a look at what is there, and the closing bracket. -/
def bracketed : List Grammar :=
  [literal "(", .map digits seen, .trace "number", literal ")", .map letters seen]

/-- The closing bracket is missing, so nothing is read behind it, and nothing is recorded but
    the number. -/
theorem bracketed_sequence_is_chain :
    (State.initial (Text.ofString "(12]x")).isError = false ∧
      (∃ n, ∀ fuel, n ≤ fuel →
        (sequence bracketed).parser [] fuel (State.initial (Text.ofString "(12]x")) {}
          = (chained bracketed []).parser [] fuel (State.initial (Text.ofString "(12]x")) {}) ∧
      (∃ t l, (sequence bracketed).parser [] 9 (State.initial (Text.ofString "(12]x")) {}
          = .returned t l ∧ t.isError = true ∧ t.cursor = 3 ∧ l.calls = #[("seen", .str "12")] ∧
        ∃ before part after u k, bracketed = before ++ part :: after ∧
          Threads [] before (State.initial (Text.ofString "(12]x")) {} u k ∧
          Run.SettlesOn (fun fuel => part.parser [] fuel u) k (.returned t l)) ∧
      ∃ n, ∀ fuel, n ≤ fuel →
        (between (literal "(") (literal "]") digits).parser [] fuel
            (State.initial (Text.ofString "(12]x")) {}
          = (chain (literal "(") pure fun _ => chain digits pure fun v =>
              map (literal "]") fun _ => pure v).parser [] fuel
            (State.initial (Text.ofString "(12]x")) {} := by
  have hstart : (State.initial (Text.ofString "(12]x")).isError = false := rfl
  obtain ⟨-, -, hchain, hfails, hbetween⟩ := sequence_is_chain [] hstart {}
  obtain ⟨t, l, hreturned, ht, hcursor, hcalls⟩ : ∃ t l,
      (sequence bracketed).parser [] 9 (State.initial (Text.ofString "(12]x")) {}
        = .returned t l ∧ t.isError = true ∧ t.cursor = 3 ∧ l.calls = #[("seen", .str "12")] :=
    ⟨_, _, rfl, rfl, rfl, rfl⟩
  have hfailing := (hfails bracketed t l ht).mp (settlesOn_of_returned [] hreturned)
  exact ⟨hstart, hchain bracketed, ⟨t, l, hreturned, ht, hcursor, hcalls, hfailing⟩,
    hbetween _ _ _⟩

end Grammar

end Descent
