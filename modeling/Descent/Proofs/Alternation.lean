/-
  Descent/Proofs/Alternation.lean
  ===============================
  **What alternatives are tried, and in what order.**

  A choice tries its alternatives one after the other, all from where it started.  So a
  choice among the alternatives is as good as its own alternatives, written out in its
  place, and it does not matter how alternatives are put in brackets; an alternative that
  has been tried before is of no use (`Grammar.alternation_is_flat`).

  What all alternatives begin with can be read once, before the choice
  (`Grammar.left_factoring_preserves_success`).  Then the same alternative wins, with the
  same state.  But where no alternative goes on, the choice fails behind what they have in
  common, and not in front of it.

  Both rest on the same account of a choice: some of the alternatives, and if they fail,
  the others (`choiceFrom_append`).
-/
import Descent.Proofs.Attempts

namespace Descent

namespace Parser

variable {p q : Parser} {ps qs xs ys zs : List Parser} {s t : State} {j k : Journal}

/-! ### Alternatives behind alternatives -/

theorem choiceFrom_append (ps qs : List Parser) (s : State) :
    choiceFrom (ps ++ qs) s = (do
      let t ← choiceFrom ps s
      if t.isError then choiceFrom qs s else pure t) := by
  induction ps with
  | nil => rfl
  | cons p ps ih =>
    rw [List.cons_append, choiceFrom, choiceFrom, bind_assoc]
    refine bind_congr fun t => ?_
    cases ht : t.isError with
    | true => rw [if_pos rfl, if_pos rfl, ih]
    | false => rw [if_neg Bool.false_ne_true, if_neg Bool.false_ne_true, pure_bind, ht,
        if_neg Bool.false_ne_true]

theorem choiceFrom_append_congr (xs : List Parser) (h : choiceFrom ps s = choiceFrom qs s) :
    choiceFrom (xs ++ ps) s = choiceFrom (xs ++ qs) s := by
  rw [choiceFrom_append, choiceFrom_append, h]

/-- A choice that comes first fails where its alternatives do, and no more is known of it
    then. -/
theorem choiceFrom_choice (hs : s.isError = false) (ys zs : List Parser) :
    choiceFrom (choice ys :: zs) s = choiceFrom (ys ++ zs) s := by
  rw [choiceFrom, choice_eq hs, choiceFrom_append]

theorem choice_congr (h : ∀ s : State, s.isError = false → choiceFrom ps s = choiceFrom qs s) :
    choice ps = choice qs := by
  funext s
  cases hs : s.isError with
  | true => rw [choice, choice, if_pos hs, if_pos hs]
  | false => rw [choice_eq hs, choice_eq hs, h s hs]

/-- The first alternatives are tried either way, and it is behind them that the choices may
    differ. -/
theorem choiceFrom_append_endAlike (xs : List Parser)
    (h : ∀ k, (choiceFrom ps s k).EndAlike Eq (choiceFrom qs s k)) (j : Journal) :
    (choiceFrom (xs ++ ps) s j).EndAlike Eq (choiceFrom (xs ++ qs) s j) := by
  rw [choiceFrom_append, choiceFrom_append]
  refine (Run.Ensures.trivial _).paired (fun t _ k => ?_) j
  cases t.isError with
  | true => exact h k
  | false => exact ⟨rfl, True.intro⟩

/-- An alternative is tried for nothing behind another one that succeeds where it does. -/
theorem choiceFrom_redundant (hpq : SuccessEqual p q) (hzs : List.Forall₂ SuccessEqual zs zs)
    (hs : s.isError = false) (xs ys : List Parser) (j : Journal) :
    (choiceFrom (xs ++ p :: (ys ++ q :: zs)) s j).EndAlike Eq
      (choiceFrom (xs ++ p :: (ys ++ zs)) s j) := by
  apply choiceFrom_append_endAlike
  intro k
  refine (Run.Ensures.returned (p s)).paired (fun t ⟨k', l', ht⟩ l => ?_) k
  cases hfailed : t.isError with
  | false => exact ⟨rfl, True.intro⟩
  | true =>
    apply choiceFrom_append_endAlike
    intro m
    -- The first of the two has failed, so the second one fails now.
    obtain ⟨u, m', hu, hsame⟩ := hpq.returned hs ht m
    rw [choiceFrom_failed hu (hsame.1.symm.trans hfailed)]
    exact choiceFrom_endAlike hzs hs m' m

/-! ### What the alternatives begin with -/

/-- What a sequence of two makes of the state of its second part. -/
def pairUp (first : Value) (u : State) : State :=
  if u.isError then u else u.withResult (.list [first, u.result])

theorem pairUp_failed {first : Value} {u : State} (hu : u.isError = true) : pairUp first u = u :=
  if_pos hu

theorem pairUp_isError (first : Value) (u : State) : (pairUp first u).isError = u.isError := by
  rw [pairUp]
  split <;> rfl

theorem sequence_pair (hs : s.isError = false) :
    sequence [p, q] s = (do
      let t ← p s
      if t.isError then pure t
      else do
        let u ← q t
        pure (pairUp t.result u)) := by
  rw [sequence_eq hs, sequenceFrom]
  refine bind_congr fun t => ite_congr rfl (fun _ => rfl) fun _ => ?_
  rw [sequenceFrom]
  refine bind_congr fun u => ?_
  rw [pairUp]
  split <;> rfl

/-- A choice that fails has failed where it started. -/
theorem ensures_choiceFrom_failed (ps : List Parser) (s : State) :
    (choiceFrom ps s).Ensures fun u =>
      u.isError = true → ∃ message, u = s.fail .alternativesExhausted message := by
  induction ps with
  | nil => exact .pure fun _ => ⟨_, rfl⟩
  | cons p ps ih =>
    refine .bind (.trivial _) fun t _ => .ite (fun _ => ih) fun hgoes => ?_
    exact .pure fun hfailed => absurd hfailed hgoes

/-- The alternatives, each with the same parser in front of it. -/
def behindEach (p : Parser) (qs : List Parser) : List Parser := qs.map fun q => sequence [p, q]

/-- One alternative: the parser in front, the alternative where that has ended, and where
    either fails, the others. -/
theorem choiceFrom_behindEach_cons (hs : s.isError = false) (q : Parser) (qs : List Parser) :
    choiceFrom (behindEach p (q :: qs)) s = (do
      let t ← p s
      if t.isError then choiceFrom (behindEach p qs) s
      else do
        let u ← q t
        if u.isError then choiceFrom (behindEach p qs) s else pure (pairUp t.result u)) := by
  rw [behindEach, List.map_cons, choiceFrom, sequence_pair hs, bind_assoc]
  refine bind_congr fun t => ?_
  cases ht : t.isError with
  | true =>
    rw [if_pos rfl, if_pos rfl, pure_bind, if_pos ht]
    rfl
  | false =>
    rw [if_neg Bool.false_ne_true, if_neg Bool.false_ne_true, bind_assoc]
    simp only [pure_bind, pairUp_isError]
    rfl

/-- Where the parser in front fails, it fails in front of every alternative. -/
theorem choiceFrom_behindEach_failed (hp : SuccessEqual p p) (hs : s.isError = false)
    (h : p s j = .returned t k) (ht : t.isError = true) (qs : List Parser) (l : Journal) :
    ∃ u m, choiceFrom (behindEach p qs) s l = .returned u m ∧ u.isError = true := by
  induction qs generalizing l with
  | nil => exact ⟨_, l, rfl, rfl⟩
  | cons q qs ih =>
    obtain ⟨u, m, hu, hsame⟩ := hp.returned hs h l
    rw [choiceFrom_behindEach_cons hs, Run.bind_returned hu, if_pos (hsame.1.symm.trans ht)]
    exact ih m

/-- Where the parser in front succeeds, it does so in front of every alternative, in the
    same state, and the alternatives are tried there. -/
theorem choiceFrom_behindEach_ok (hp : SuccessEqual p p) (hqs : ∀ q ∈ qs, SuccessEqual q q)
    (hs : s.isError = false) (h : p s j = .returned t k) (ht : t.isError = false)
    (l m : Journal) :
    (choiceFrom (behindEach p qs) s l).EndAlike State.SameSuccess
      ((do
        let u ← choiceFrom qs t
        pure (pairUp t.result u)) m) := by
  induction qs generalizing l m with
  | nil => exact ⟨⟨rfl, nofun⟩, True.intro⟩
  | cons q qs ih =>
    obtain ⟨t', l', hl', hsame⟩ := hp.returned hs h l
    obtain rfl := hsame.2 ht
    have hq : SuccessEqual q q := hqs q List.mem_cons_self
    have hrest : ∀ q' ∈ qs, SuccessEqual q' q' := fun q' h' => hqs q' (List.mem_cons_of_mem q h')
    rw [choiceFrom_behindEach_cons hs, Run.bind_returned hl', ht, if_neg Bool.false_ne_true,
      choiceFrom, bind_assoc]
    -- The journals are different by now, since `p` has been applied once more on the left.
    refine Run.paired_bind (hq t ht l' m) (fun _ _ h => h) ?_
    rintro u v l'' m'' ⟨hfailed, hsame⟩ -
    rw [← hfailed]
    cases hu : u.isError with
    | true => exact ih hrest l'' m''
    | false =>
      obtain rfl := hsame hu
      exact ⟨⟨rfl, fun _ => rfl⟩, True.intro⟩

/-- With one alternative at least, the parser in front is applied either way. -/
theorem behindEach_endAlike (hp : SuccessEqual p p) (hqs : ∀ q ∈ qs, SuccessEqual q q)
    (hsome : qs ≠ []) (hs : s.isError = false) (j k : Journal) :
    (choice (behindEach p qs) s j).EndAlike State.SameSuccess (sequence [p, choice qs] s k) := by
  obtain ⟨q, qs', rfl⟩ := List.exists_cons_of_ne_nil hsome
  rw [choice_eq hs, sequence_pair hs]
  obtain ⟨t, u, j', k', ht, hu, hsame, -⟩ | ⟨_, _, _, hraised, hraised', -⟩ | ⟨hnone, hnone'⟩ :=
    (hp s hs j k).cases
  · rw [Run.bind_returned hu, ← hsame.1]
    cases hok : t.isError with
    | true =>
      obtain ⟨v, l, hv, hfailed⟩ := choiceFrom_behindEach_failed hp hs ht hok (q :: qs') j
      rw [hv, if_pos rfl]
      exact ⟨State.sameSuccess_of_failed hfailed (hsame.1.symm.trans hok), True.intro⟩
    | false =>
      obtain rfl := hsame.2 hok
      rw [if_neg Bool.false_ne_true, choice_eq hok]
      exact choiceFrom_behindEach_ok hp hqs hs ht hok j k'
  · rw [choiceFrom_behindEach_cons hs, Run.bind_raised hraised, Run.bind_raised hraised']
    exact ⟨rfl, True.intro⟩
  · rw [choiceFrom_behindEach_cons hs, Run.bind_exhausted hnone, Run.bind_exhausted hnone']
    exact True.intro

/-- Where a parser and a choice behind it fail, it is the parser that has failed, or all
    alternatives behind it. -/
theorem sequence_choice_failed (hs : s.isError = false) {v : State}
    (h : sequence [p, choice qs] s j = .returned v k) (hv : v.isError = true) :
    ∃ t l, p s j = .returned t l ∧ (t.isError = true ∧ v = t ∨
      t.isError = false ∧ ∃ message, v = t.fail .alternativesExhausted message) := by
  rw [sequence_pair hs] at h
  obtain ⟨t, l, ht, hrest⟩ := Run.returned_of_bind h
  refine ⟨t, l, ht, ?_⟩
  cases hok : t.isError with
  | true =>
    rw [hok, if_pos rfl] at hrest
    cases hrest
    exact .inl ⟨rfl, rfl⟩
  | false =>
    rw [hok, if_neg Bool.false_ne_true, choice_eq hok] at hrest
    obtain ⟨u, m, hu, hpair⟩ := Run.returned_of_bind hrest
    cases hpair
    rw [pairUp_isError] at hv
    rw [pairUp_failed hv]
    exact .inr ⟨rfl, ensures_choiceFrom_failed qs t l u k hu hv⟩

/-- Without alternatives there is no success, whatever the parser in front does. -/
theorem sequence_choice_nil (hs : s.isError = false) :
    (sequence [p, choice []] s).Ensures fun v => v.isError = true := by
  rw [sequence_pair hs]
  refine .bind (.trivial _) fun t _ => .ite (fun hfailed => .pure hfailed) fun hgoes => ?_
  rw [choice_eq (by simpa using hgoes)]
  exact .pure rfl

end Parser

namespace Grammar

variable {rules : Rules} {p q : Grammar}

/-- A way of putting alternatives in brackets, two at a time. -/
inductive Bracketing where
  | one (alternative : Grammar)
  | either (first second : Bracketing)

namespace Bracketing

/-- The alternatives with their brackets. -/
def grammar : Bracketing → Grammar
  | one alternative => alternative
  | either first second => first.grammar.orElse second.grammar

/-- The alternatives in the order in which they are written. -/
def alternatives : Bracketing → List Grammar
  | one alternative => [alternative]
  | either first second => first.alternatives ++ second.alternatives

/-- The brackets come off, also if there are alternatives behind them. -/
theorem choiceFrom_grammar (rules : Rules) (b : Bracketing) (zs : List Parser) {s : State}
    (hs : s.isError = false) :
    Parser.choiceFrom (b.grammar.meaning rules :: zs) s
      = Parser.choiceFrom (b.alternatives.map (meaning rules) ++ zs) s := by
  induction b generalizing zs with
  | one alternative => rfl
  | either first second hfirst hsecond =>
    have hmeaning : (either first second).grammar.meaning rules
        = Parser.choice [first.grammar.meaning rules, second.grammar.meaning rules] := by
      rw [grammar, orElse, meaning_choice]
      rfl
    rw [hmeaning, Parser.choiceFrom_choice hs, List.cons_append, hfirst, List.singleton_append,
      Parser.choiceFrom_append_congr _ (hsecond zs), alternatives, List.map_append,
      List.append_assoc]

theorem meaning_either (rules : Rules) (first second : Bracketing) :
    (either first second).grammar.meaning rules
      = (choice (first.alternatives ++ second.alternatives)).meaning rules := by
  rw [grammar, orElse, meaning_choice, meaning_choice, List.map_append]
  apply Parser.choice_congr
  intro s hs
  rw [List.map_cons, first.choiceFrom_grammar rules _ hs]
  apply Parser.choiceFrom_append_congr
  rw [List.map_singleton, second.choiceFrom_grammar rules [] hs, List.append_nil]

end Bracketing

theorem meaning_choice_choice (rules : Rules) (xs ys zs : List Grammar) :
    (choice (xs ++ choice ys :: zs)).meaning rules = (choice (xs ++ (ys ++ zs))).meaning rules := by
  simp only [meaning_choice, List.map_append, List.map_cons]
  apply Parser.choice_congr
  intro s hs
  exact Parser.choiceFrom_append_congr _ (Parser.choiceFrom_choice hs _ _)

theorem forall₂_successEqual_self (rules : Rules) (gs : List Grammar) :
    List.Forall₂ Parser.SuccessEqual (gs.map (meaning rules)) (gs.map (meaning rules)) := by
  rw [List.forall₂_map_left_iff, List.forall₂_map_right_iff, List.forall₂_same]
  exact fun g _ => (successEqual_self g).meaning

theorem meaning_choice_redundant (hpq : SuccessEqual rules p q) (xs ys zs : List Grammar)
    (s : State) (j : Journal) :
    ((choice (xs ++ p :: (ys ++ q :: zs))).meaning rules s j).EndAlike Eq
      ((choice (xs ++ p :: (ys ++ zs))).meaning rules s j) := by
  simp only [meaning_choice, List.map_append, List.map_cons]
  cases hs : s.isError with
  | true =>
    rw [Parser.choice, Parser.choice, if_pos hs, if_pos hs]
    exact ⟨rfl, True.intro⟩
  | false =>
    rw [Parser.choice_eq hs, Parser.choice_eq hs]
    exact Parser.choiceFrom_redundant hpq.meaning (forall₂_successEqual_self rules zs) hs _ _ j

/-- **Alternation is associative, and has no use for what it has tried.**  From every state,
    a choice among the alternatives can be replaced with its own alternatives, and
    alternatives can be put in any brackets: the outcome is the same, with the same effects
    in the same order.  An alternative that succeeds where an earlier one does, with the
    same states, can be left out: the same state is returned, or the same fault raised. -/
theorem alternation_is_flat (rules : Rules) (s : State) (j : Journal) :
    (∀ xs ys zs, ∃ n, ∀ fuel, n ≤ fuel →
      (choice (xs ++ choice ys :: zs)).parser rules fuel s j
        = (choice (xs ++ (ys ++ zs))).parser rules fuel s j) ∧
    (∀ first second : Bracketing, ∃ n, ∀ fuel, n ≤ fuel →
      (first.either second).grammar.parser rules fuel s j
        = (choice (first.alternatives ++ second.alternatives)).parser rules fuel s j) ∧
    (∀ p q, SuccessEqual rules p q → ∀ xs ys zs, ∃ n, ∀ fuel, n ≤ fuel →
      ((choice (xs ++ p :: (ys ++ q :: zs))).parser rules fuel s j).EndAlike Eq
        ((choice (xs ++ p :: (ys ++ zs))).parser rules fuel s j)) := by
  refine ⟨fun xs ys zs => ?_, fun first second => ?_, fun p q hpq xs ys zs => ?_⟩
  · apply exists_fuel_of_meaning (T := Eq)
    rw [meaning_choice_choice]
  · apply exists_fuel_of_meaning (T := Eq)
    rw [Bracketing.meaning_either]
  · exact exists_fuel_of_meaning (meaning_choice_redundant hpq xs ys zs s j)

/-- Brackets around two of three alternatives, and an alternative that succeeds where the
    first one does, and can be left out. -/
theorem digits_or_letters_alternation_is_flat :
    SuccessEqual [] (literal "a") stray ∧
      (∃ n, ∀ fuel, n ≤ fuel →
        ((literal "a").orElse (digits.orElse letters)).parser [] fuel
            (State.initial (Text.ofString "12")) {}
          = (choice [literal "a", digits, letters]).parser [] fuel
            (State.initial (Text.ofString "12")) {}) ∧
      (∃ n, ∀ fuel, n ≤ fuel →
        ((choice [literal "a", digits, stray, letters]).parser [] fuel
            (State.initial (Text.ofString "x")) {}).EndAlike Eq
          ((choice [literal "a", digits, letters]).parser [] fuel
            (State.initial (Text.ofString "x")) {})) ∧
      (choice [literal "a", digits, letters]).parser [] 2 (State.initial (Text.ofString "x")) {}
        = .returned { input := Text.ofString "x", cursor := 1, result := .str "x" } {} := by
  have hstray := literal_successEqual_stray
  obtain ⟨-, hbrackets, -⟩ := alternation_is_flat [] (State.initial (Text.ofString "12")) {}
  obtain ⟨-, -, hredundant⟩ := alternation_is_flat [] (State.initial (Text.ofString "x")) {}
  exact ⟨hstray, hbrackets (.one (literal "a")) (.either (.one digits) (.one letters)),
    hredundant (literal "a") stray hstray [] [digits] [letters], rfl⟩

/-! ### Left factoring -/

/-- Alternatives that all begin with `p`. -/
def expanded (p : Grammar) (qs : List Grammar) : Grammar :=
  .choice (qs.map fun q => .sequence [p, q])

/-- The same with `p` in front of the choice. -/
def factored (p : Grammar) (qs : List Grammar) : Grammar := .sequence [p, .choice qs]

theorem meaning_expanded (rules : Rules) (p : Grammar) (qs : List Grammar) :
    (expanded p qs).meaning rules
      = Parser.choice (Parser.behindEach (p.meaning rules) (qs.map (meaning rules))) := by
  rw [expanded, meaning_choice, Parser.behindEach, List.map_map, List.map_map]
  refine congrArg _ (List.map_congr_left fun q _ => ?_)
  exact meaning_sequence [p, q]

theorem meaning_factored (rules : Rules) (p : Grammar) (qs : List Grammar) :
    (factored p qs).meaning rules
      = Parser.sequence [p.meaning rules, Parser.choice (qs.map (meaning rules))] := by
  rw [factored, meaning_sequence, List.map_cons, List.map_singleton, meaning_choice]

theorem expanded_successEqual_factored (rules : Rules) (p : Grammar) {qs : List Grammar}
    (hsome : qs ≠ []) : SuccessEqual rules (expanded p qs) (factored p qs) := by
  refine endAlike_of_meaning fun s hs j k => ?_
  rw [meaning_expanded, meaning_factored]
  have hqs : ∀ q ∈ qs.map (meaning rules), q.SuccessEqual q :=
    List.forall_mem_map.mpr fun q _ => (successEqual_self q).meaning
  exact Parser.behindEach_endAlike (successEqual_self p).meaning hqs (by simpa using hsome) hs j k


theorem expanded_returned_iff (rules : Rules) (p : Grammar) (qs : List Grammar) (s : State)
    (j : Journal) {t : State} (ht : t.isError = false) :
    (∃ k, (expanded p qs).meaning rules s j = .returned t k) ↔
      ∃ k, (factored p qs).meaning rules s j = .returned t k := by
  cases hs : s.isError with
  | true =>
    have hleft : (expanded p qs).meaning rules s j = .returned s j := by
      rw [meaning_expanded, Parser.choice, if_pos hs]
      rfl
    have hright : (factored p qs).meaning rules s j = .returned s j := by
      rw [meaning_factored, Parser.sequence, if_pos hs]
      rfl
    rw [hleft, hright]
  | false =>
    cases qs with
    | nil =>
      constructor
      · rintro ⟨k, h⟩
        rw [meaning_expanded, Parser.choice_eq hs] at h
        cases h
        cases ht
      · rintro ⟨k, h⟩
        rw [meaning_factored] at h
        have hfailed := Parser.sequence_choice_nil hs j t k h
        exact absurd (ht.symm.trans hfailed) Bool.false_ne_true
    | cons q qs =>
      have hequal := expanded_successEqual_factored rules p (List.cons_ne_nil q qs)
      exact hequal.meaning.returned_iff hs ht j j

/-- **Left factoring preserves success.**  A choice among alternatives that all begin with
    `p` and a sequence of `p` and the choice return the same successes, and if there is an
    alternative at all they also fail alike and raise the same faults.  But they do not fail
    in the same place: the first one fails where it started, and the second one as `p` does,
    or where `p` has ended. -/
theorem left_factoring_preserves_success (rules : Rules) (p : Grammar) (qs : List Grammar)
    (s : State) (j : Journal) :
    (qs ≠ [] → SuccessEqual rules (expanded p qs) (factored p qs)) ∧
    (∀ t : State, t.isError = false →
      ((∃ k, Run.SettlesOn (fun fuel => (expanded p qs).parser rules fuel s) j (.returned t k)) ↔
        ∃ k, Run.SettlesOn (fun fuel => (factored p qs).parser rules fuel s) j (.returned t k))) ∧
    (∀ t k, s.isError = false → t.isError = true →
      Run.SettlesOn (fun fuel => (expanded p qs).parser rules fuel s) j (.returned t k) →
        ∃ message, t = s.fail .alternativesExhausted message) ∧
    (∀ t k, s.isError = false → t.isError = true →
      Run.SettlesOn (fun fuel => (factored p qs).parser rules fuel s) j (.returned t k) →
        ∃ u l, Run.SettlesOn (fun fuel => p.parser rules fuel s) j (.returned u l) ∧
          (u.isError = true ∧ t = u ∨
            u.isError = false ∧ ∃ message, t = u.fail .alternativesExhausted message)) := by
  refine ⟨expanded_successEqual_factored rules p, fun t ht => ?_, fun t k hs ht h => ?_,
    fun t k hs ht h => ?_⟩
  · simp only [settlesOn_iff]
    exact expanded_returned_iff rules p qs s j ht
  · rw [settlesOn_iff, meaning_expanded, Parser.choice_eq hs] at h
    exact Parser.ensures_choiceFrom_failed _ s j t k h ht
  · simp only [settlesOn_iff] at h ⊢
    rw [meaning_factored] at h
    exact Parser.sequence_choice_failed hs h ht

/-- An `a` and a `b` or a `c`: both ways read them, but behind an `a` that is followed by
    neither the one fails in front of it and the other one behind it. -/
theorem pair_left_factoring :
    SuccessEqual [] (expanded (literal "a") [literal "b", literal "c"])
        (factored (literal "a") [literal "b", literal "c"]) ∧
      (∃ k, Run.SettlesOn
          (fun fuel => (factored (literal "a") [literal "b", literal "c"]).parser [] fuel
            (State.initial (Text.ofString "ac"))) {}
        (.returned { input := Text.ofString "ac", cursor := 2,
                     result := .list [.str "a", .str "c"] } k)) ∧
      (∃ t k, Run.SettlesOn
          (fun fuel => (expanded (literal "a") [literal "b", literal "c"]).parser [] fuel
            (State.initial (Text.ofString "ax"))) {} (.returned t k) ∧
        t.FailedAt .alternativesExhausted 0) ∧
      ∃ t k, Run.SettlesOn
          (fun fuel => (factored (literal "a") [literal "b", literal "c"]).parser [] fuel
            (State.initial (Text.ofString "ax"))) {} (.returned t k) ∧
        t.FailedAt .alternativesExhausted 1 := by
  obtain ⟨hequal, hiff, -, -⟩ := left_factoring_preserves_success [] (literal "a")
    [literal "b", literal "c"] (State.initial (Text.ofString "ac")) {}
  obtain ⟨-, -, hexpanded, hfactored⟩ := left_factoring_preserves_success [] (literal "a")
    [literal "b", literal "c"] (State.initial (Text.ofString "ax")) {}
  refine ⟨hequal nofun, (hiff _ rfl).mp ⟨{}, settlesOn_of_returned [] (n := 4) rfl⟩, ?_, ?_⟩
  · obtain ⟨t, k, ht, hfailed⟩ : ∃ t k,
        (expanded (literal "a") [literal "b", literal "c"]).parser [] 4
          (State.initial (Text.ofString "ax")) {} = .returned t k ∧ t.isError = true :=
      ⟨_, _, rfl, rfl⟩
    have hsettles := settlesOn_of_returned [] ht
    obtain ⟨message, rfl⟩ := hexpanded t k rfl hfailed hsettles
    exact ⟨_, k, hsettles, .fail rfl _ message⟩
  · obtain ⟨t, k, ht, hfailed⟩ : ∃ t k,
        (factored (literal "a") [literal "b", literal "c"]).parser [] 4
          (State.initial (Text.ofString "ax")) {} = .returned t k ∧ t.isError = true :=
      ⟨_, _, rfl, rfl⟩
    have hsettles := settlesOn_of_returned [] ht
    obtain ⟨u, l, hu, hplace⟩ := hfactored t k rfl hfailed hsettles
    have hfirst : Run.SettlesOn (fun fuel => (literal "a").parser [] fuel
        (State.initial (Text.ofString "ax"))) {}
        (.returned { input := Text.ofString "ax", cursor := 1, result := .str "a" } {}) :=
      settlesOn_of_returned [] (n := 1) rfl
    rw [settlesOn_iff] at hu hfirst
    rw [hfirst] at hu
    cases hu
    obtain ⟨⟨⟩, -⟩ | ⟨-, message, rfl⟩ := hplace
    exact ⟨_, k, hsettles, .fail rfl _ message⟩

end Grammar

end Descent
